import Handoff.Proofs.Asset.Leading
import Handoff.Proofs.Asset.Outcomes
import Handoff.Proofs.Files.Taking

/-!
What the saves of an export depend on.

A picture is saved exactly when the tree at the start takes its file: the pictures that were saved
before make no difference. So the events about a layer are decided by the answers for it.
-/

namespace Handoff.Asset

open Action Config Design Files Remote

namespace Exporter

variable (exporter : Exporter) {s t : World} {format : ExportFormat}

/-- The second state takes the same pictures as the first. -/
def TakesAlike (s t : World) : Prop :=
  s.workspace.Sound → t.workspace.Sound ∧ ∀ name,
    t.workspace.Takes ⟨exporter.settings.assetsDir.anchor,
        exporter.settings.assetsDir.parts ++ [name]⟩ ↔
      s.workspace.Takes ⟨exporter.settings.assetsDir.anchor,
        exporter.settings.assetsDir.parts ++ [name]⟩

lemma carries_takesAlike : Carries exporter.TakesAlike where
  same h hw := by
    rw [h.workspace]
    exact ⟨hw, fun _ => Iff.rfl⟩
  trans h h' hw :=
    ⟨(h' (h hw).1).1, fun name => ((h' (h hw).1).2 name).trans ((h hw).2 name)⟩

lemma leads_writeFile {name : Text} (hn : name ≠ "..") (content : ByteArray) :
    Leads exporter.TakesAlike (writeFile exporter.root ⟨exporter.settings.assetsDir.anchor,
      exporter.settings.assetsDir.parts ++ [name]⟩ content) := by
  intro s hw
  obtain ⟨journal, h⟩ := exec_writeFile exporter.root ⟨exporter.settings.assetsDir.anchor,
    exporter.settings.assetsDir.parts ++ [name]⟩ content s
  rw [h]
  exact ⟨(Workspace.save_saved hw hn).sound, fun _ => Workspace.takes_save hw hn⟩

/-- The names of all pictures. -/
def IsPictureName (file : Text) : Prop := ∃ layer format, fileName layer format = .ok file

lemma carriesSaves_takesAlike : exporter.CarriesSaves IsPictureName exporter.TakesAlike where
  toCarries := exporter.carries_takesAlike
  save := by
    rintro file ⟨layer, format, hfile⟩ content
    obtain ⟨stem, hfilename, -⟩ := isFileName_of_fileName hfile
    rw [hfilename.child_eq]
    exact exporter.leads_writeFile hfilename.ne_dots content

/-- Layers have picture names. -/
lemma isPictureName_of_mem (format : ExportFormat) (layers : List Layer) : ∀ layer ∈ layers, ∀ file,
    fileName layer format = .ok file → IsPictureName file :=
  fun layer _ _ hfile => ⟨layer, format, hfile⟩

/-! ### The saves -/

/-- Every picture that arrived was saved, under the name of its layer, and a save went well exactly
when the tree takes the file. -/
structure Saves (w : Workspace) (events : List Event) : Prop where
  saved : ∀ {layer file outcome}, .saved layer file outcome ∈ events → HasFile layer file ∧
    ((∃ b, outcome = .ok b) ↔ w.Takes (exporter.settings.assetsDir.child file))
  downloaded : ∀ {layer url content}, .downloaded layer url (.ok content) ∈ events →
    ∃ file outcome, .saved layer file outcome ∈ events

variable {exporter}

lemma Saves.nil (w : Workspace) : exporter.Saves w [] := ⟨nofun, nofun⟩

lemma Saves.append {w : Workspace} {before after : List Event} (h : exporter.Saves w before)
    (h' : exporter.Saves w after) : exporter.Saves w (before ++ after) where
  saved hm := (List.mem_append.1 hm).elim h.saved h'.saved
  downloaded hm := by
    rcases List.mem_append.1 hm with hm | hm
    · obtain ⟨file, outcome, hs⟩ := h.downloaded hm
      exact ⟨file, outcome, List.mem_append_left _ hs⟩
    · obtain ⟨file, outcome, hs⟩ := h'.downloaded hm
      exact ⟨file, outcome, List.mem_append_right _ hs⟩

lemma Saves.of_takesAlike {events : List Event} (h : exporter.Saves t.workspace events)
    (hst : exporter.TakesAlike s t) (hw : s.workspace.Sound) : exporter.Saves s.workspace events where
  saved hm := by
    obtain ⟨hfile, hiff⟩ := h.saved hm
    refine ⟨hfile, hiff.trans ?_⟩
    obtain ⟨format, -, hf⟩ := hfile
    obtain ⟨stem, hfilename, -⟩ := isFileName_of_fileName hf
    rw [hfilename.child_eq]
    exact (hst hw).2 _
  downloaded := h.downloaded

variable (exporter)

lemma saves_fetchEvents (hw : s.workspace.Sound) {layer : Layer}
    (hformat : layer.exportFormat? = .ok (some format)) {file : Text}
    (hfile : fileName layer format = .ok file) (url : Value) :
    exporter.Saves s.workspace (exporter.fetchEvents format layer url s) := by
  obtain ⟨stem, hfilename, -⟩ := isFileName_of_fileName hfile
  unfold fetchEvents
  rw [exporter.client.exec_download]
  rcases Except.map _ (answered exporter.client.service s.requests
    (exporter.client.downloadRequest url)) with fault | content
  · refine ⟨fun hm => ?_, fun hm => ?_⟩ <;> simp at hm
  · simp only [hfile]
    obtain ⟨journal, hwrite⟩ := exec_writeFile exporter.root
      (exporter.settings.assetsDir.child file) content
      { s with requests := s.requests ++ [exporter.client.downloadRequest url] }
    rw [hwrite]
    refine ⟨fun hm => ?_, fun hm => ?_⟩
    · simp only [List.mem_cons, List.not_mem_nil, or_false, reduceCtorEq, false_or] at hm
      cases hm
      refine ⟨⟨format, hformat, hfile⟩, ?_⟩
      rw [hfilename.child_eq]
      exact Workspace.save_isOk_iff hw hfilename.ne_dots
    · simp only [List.mem_cons, List.not_mem_nil, or_false, reduceCtorEq] at hm
      cases hm
      exact ⟨file, _, List.mem_cons_of_mem _ List.mem_cons_self⟩

lemma saves_jobEvents (hw : s.workspace.Sound) {layers : List Layer}
    (hl : Exportable format layers) {jobs : List (Layer × Value)}
    (hj : ∀ job ∈ jobs, job.1 ∈ layers) :
    exporter.Saves s.workspace (exporter.jobEvents format jobs s) := by
  induction jobs generalizing s with
  | nil => exact .nil _
  | cons job rest ih =>
    rw [List.forall_mem_cons] at hj
    obtain ⟨file, hfile⟩ := hl.file _ hj.1
    have hfetch := exporter.carriesSaves_takesAlike.fetch
      (fun file hf => ⟨job.1, format, hf⟩) job.2 s
    exact (exporter.saves_fetchEvents hw (hl.exported _ hj.1) hfile job.2).append
      ((ih (hfetch hw).1 hj.2).of_takesAlike hfetch hw)

lemma saves_batchEvents (hw : s.workspace.Sound) {batch : List Layer}
    (hb : Exportable format batch) :
    exporter.Saves s.workspace (exporter.batchEvents format batch s) := by
  have hask := Leads.of_steady exporter.carries_takesAlike (exporter.steady_ask format batch) s
  unfold batchEvents
  rcases he : (exporter.ask format batch).exec s with ⟨answer, t⟩
  rw [he] at hask
  have hcons {events : List Event} (h : exporter.Saves s.workspace events) :
      exporter.Saves s.workspace (.asked format batch answer :: events) := by
    refine ⟨fun hm => ?_, fun hm => ?_⟩
    · exact h.saved (by simpa using hm)
    · obtain ⟨file, outcome, hs⟩ := h.downloaded (by simpa using hm)
      exact ⟨file, outcome, List.mem_cons_of_mem _ hs⟩
  refine hcons ?_
  split
  · rename_i jobs hjobs
    obtain ⟨urls, -, hjobs⟩ := bind_eq_ok.1 hjobs
    refine (exporter.saves_jobEvents (hask hw).1 hb fun job hj => ?_).of_takesAlike hask hw
    exact (jobsAmong_sublist hjobs).subset (List.mem_map_of_mem hj)
  · exact .nil _

lemma saves_batchesEvents (hw : s.workspace.Sound) {batches : List (List Layer)}
    (hb : Exportable format batches.flatten) :
    exporter.Saves s.workspace (exporter.batchesEvents format batches s) := by
  induction batches generalizing s with
  | nil => exact .nil _
  | cons batch rest ih =>
    rw [List.flatten_cons] at hb
    have hafter := exporter.carriesSaves_takesAlike.afterBatch
      (isPictureName_of_mem format batch) s
    exact (exporter.saves_batchEvents hw (hb.sublist (List.sublist_append_left ..))).append
      ((ih (hafter hw).1 (hb.sublist (List.sublist_append_right ..))).of_takesAlike hafter hw)

lemma saves_formatsEvents (hw : s.workspace.Sound) {partitions : Partitions}
    {formats : List ExportFormat} (hf : ∀ format ∈ formats, Exportable format (partitions.of format)) :
    exporter.Saves s.workspace (exporter.formatsEvents partitions formats s) := by
  induction formats generalizing s with
  | nil => exact .nil _
  | cons format rest ih =>
    rw [List.forall_mem_cons] at hf
    have hafter := exporter.carriesSaves_takesAlike.exportFormat
      (fun parts (_ : batches (partitions.of format) _ = .ok parts) =>
        isPictureName_of_mem format parts.flatten) s
    refine Saves.append ?_ ((ih (hafter hw).1 hf.2).of_takesAlike hafter hw)
    unfold formatEvents
    split
    · rename_i parts hparts
      exact exporter.saves_batchesEvents hw (hf.1.sublist (batches_flatten_sublist hparts))
    · exact .nil _

end Exporter

end Handoff.Asset
