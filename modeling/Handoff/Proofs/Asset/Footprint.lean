import Handoff.Asset.Export
import Handoff.Proofs.Asset.Candidates
import Handoff.Proofs.Files.Names
import Handoff.Proofs.Remote.Calls
import Handoff.Proofs.World.Replaying

/-!
The files that an export touches: those named after its candidates.

Downloading a picture has the footprint of its file name, also when the download or the write fails
and the failure is recovered from. As no two candidates share a file name, the footprints of all
downloads are disjoint.
-/

namespace Handoff

open Files

namespace Action

variable {α β : Type} {a : Anchor} {ps : List Text} {name : Text}

lemma ext_exec {action action' : Action α} (h : ∀ s, action.exec s = action'.exec s) :
    action = action' := funext h

/-- Recovering from a sequence is recovering from its first step, then from its second. -/
lemma recover_bind (handles : Fault → Bool) (action : Action α) (next : α → Action β)
    (handler : Fault → Action β) :
    recover handles (action >>= next) handler = (attempt action >>= fun
      | .ok x => recover handles (next x) handler
      | .error fault => if handles fault then handler fault else throw fault) := by
  refine ext_exec fun s => ?_
  rw [exec_recover, exec_bind, exec_bind, exec_attempt]
  rcases action.exec s with ⟨fault | x, t⟩
  · simp only
    split <;> rfl
  · exact (exec_recover ..).symm

/-- Nothing but a message follows an action whose failure is noted. -/
lemma sameFiles_of_exec_recover {handles : Fault → Bool} {action : Action α} {ended failed b : β}
    {note : Fault → Text} {outcome : Except Fault α} {s u t : World} (ha : action.exec s = (outcome, u))
    (h : (recover handles (do let _ ← action; return ended)
      fun fault => do log .warning (note fault); return failed).exec s = (.ok b, t)) :
    SameFiles u t := by
  rw [exec_recover, exec_bind, ha] at h
  cases outcome with
  | ok value =>
    cases h
    exact .refl _
  | error fault =>
    simp only at h
    split at h
    · cases h
      exact ⟨rfl, rfl, rfl, rfl⟩
    · cases h

/-- Writing a file and recovering from a failure of the system touches the files of its name
alone. -/
theorem HasFootprint.recover_writeFile (root : Option Path) (content : ByteArray)
    (hn : name ≠ "..") (ended failed : β) (note : Fault → Text) :
    HasFootprint (· = name)
      (recover Fault.ofSystem (do let _ ← Files.writeFile root ⟨a, ps ++ [name]⟩ content; return ended)
        fun fault => do log .warning (note fault); return failed) where
  changed {s s' b} hs he := by
    rcases hw : (Files.writeFile root ⟨a, ps ++ [name]⟩ content).exec s with ⟨outcome, u⟩
    have hsaved := saved_of_exec hs hn hw
    rw [(sameFiles_of_exec_recover hw he).workspace]
    exact ⟨hsaved.sound, hsaved.grows, hsaved.sameFiles⟩
  again {s s' t b} hs he hr := by
    rcases hw : (Files.writeFile root ⟨a, ps ++ [name]⟩ content).exec s with ⟨outcome, u⟩
    have hsaved := saved_of_exec hs hn hw
    obtain ⟨hreq, hlen⟩ := length_of_exec hw
    rw [exec_recover, exec_bind, hw] at he
    cases outcome with
    | ok written =>
      cases he
      have hstores : t.workspace.Stores ⟨a, ps ++ [name]⟩ content :=
        (hsaved.stores rfl).keep hn hr.grows fun l c hl => hr.keeps l name c hl rfl
      obtain ⟨journal, ht⟩ := exec_writeFile_of_stores root hstores
      refine ⟨{ t with journal, skipped := t.skipped ++ [⟨a, ps ++ [name]⟩] }, ?_, rfl, ?_, rfl, ?_⟩
      · rw [exec_recover, exec_bind, ht]
        rfl
      · rw [hreq]
        exact hr.requests
      · simp only [List.length_append, List.length_singleton, Except.isOk, Except.toBool,
          if_true] at hlen ⊢
        omega
    | error fault =>
      simp only at he
      split at he
      · rename_i hsys
        cases he
        have hrefuses := hr.grows.refuses (hsaved.refuses rfl hsys)
        obtain ⟨trouble, text, hsave⟩ := Workspace.save_of_refuses content hr.sound hrefuses
        obtain ⟨journal, ht⟩ := exec_writeFile root ⟨a, ps ++ [name]⟩ content t
        rw [hsave] at ht
        refine ⟨{ t with
          journal := journal ++ [⟨.warning, note (.file trouble text)⟩] }, ?_, rfl, ?_, rfl, ?_⟩
        · rw [exec_recover, exec_bind, ht]
          rfl
        · exact hr.requests.trans hreq.symm
        · simp only [Except.isOk, Except.toBool] at hlen
          simp at hlen ⊢
          omega
      · cases he
  reported {s s' b} hs he := by
    rcases hw : (Files.writeFile root ⟨a, ps ++ [name]⟩ content).exec s with ⟨outcome, u⟩
    obtain ⟨written, skipped, htally⟩ := Tally.of_exec_writeFile hs (Path.endsIn_concat hn) hw
    have hafter : Tally (fun _ => False) [] [] u s' :=
      .of_sameFiles htally.spread.sound (sameFiles_of_exec_recover hw he)
    exact ⟨_, _, (htally.trans hafter fun _ _ => id).mono (by simp)⟩

end Action

lemma Design.ExportFormat.name_injective : Function.Injective Design.ExportFormat.name := by
  intro format format' h
  revert h
  cases format <;> cases format' <;> decide

namespace Asset

open Action Config Design

/-- No file name is that of both layers. -/
def Apart (format : ExportFormat) (a b : Layer) : Prop :=
  ∀ file, fileName a format = .ok file → fileName b format ≠ .ok file

/-- The layer has this file name in the format in which it is exported. -/
def HasFile (layer : Layer) (file : Text) : Prop :=
  ∃ format, layer.exportFormat? = .ok (some format) ∧ fileName layer format = .ok file

/-- No two of the layers that are candidates have one file name. -/
def SharesNoFiles (layers : List Layer) : Prop :=
  layers.Pairwise fun a b => a.isAssetCandidate = .ok true → b.isAssetCandidate = .ok true →
    ∀ file, HasFile a file → ¬ HasFile b file

/-- Layers of a format share no file names, when no two candidates do. -/
lemma SharesNoFiles.apart {layers : List Layer} {partitions : Partitions} (hd : SharesNoFiles layers)
    (h : (candidatesAmong layers).bind partition = .ok partitions) (format : ExportFormat) :
    (partitions.of format).Pairwise (Apart format) := by
  obtain ⟨candidates, hcandidates, hpartition⟩ := bind_eq_ok.1 h
  have hsub := (partition_sublist hpartition format).trans (candidatesAmong_sublist hcandidates)
  have hmem : ∀ layer ∈ partitions.of format, layer.isAssetCandidate = .ok true ∧
      layer.exportFormat? = .ok (some format) := fun layer hl =>
    ⟨isAssetCandidate_of_mem hcandidates layer ((partition_sublist hpartition format).subset hl),
      exportFormat_of_mem hpartition layer hl⟩
  refine (hd.sublist hsub).imp_of_mem fun {a b} ha hb hab file hfile hfile' => ?_
  exact hab (hmem a ha).1 (hmem b hb).1 file ⟨format, (hmem a ha).2, hfile⟩
    ⟨format, (hmem b hb).2, hfile'⟩

/-- The file name of a layer in the format in which it is exported. -/
def fileName? (layer : Layer) : Option Text :=
  match layer.exportFormat? with
  | .ok (some format) => (fileName layer format).toOption
  | _ => none

lemma SharesNoFiles.of_nodup {layers : List Layer} (h : (layers.filterMap fileName?).Nodup) :
    SharesNoFiles layers := by
  have hfile {layer : Layer} {file : Text} (h : HasFile layer file) : fileName? layer = some file := by
    obtain ⟨format, hformat, hname⟩ := h
    rw [fileName?, hformat]
    simp only [hname, Except.toOption]
  refine (List.pairwise_filterMap.1 h).imp fun hne _ _ file ha hb => ?_
  exact hne file (hfile ha) file (hfile hb) rfl

/-! ### The layers of a batch that have an address -/

/-- The address that an answer gives for the layer of a key, null without one. -/
def addressAt (fields : Fields) : Key → Value
  | .text id => (fields.lookup id).getD .null
  | _ => .null

/-- The jobs of a batch, without the messages about layers that have no address. -/
def jobsAmong (urls : Value) : List Layer → Except Fault (List (Layer × Value))
  | [] => .ok []
  | layer :: rest => do
    let fields ← urls.fields
    let url := addressAt fields (← layer.id.key)
    if url.truthy then return (layer, url) :: (← jobsAmong urls rest)
    else jobsAmong urls rest

/-- Settings with all directories below one, and batches of one layer. -/
def plainSettings : Settings where
  token := .text "token"
  fileKey := .text "key"
  rootDir := ⟨.root, ["out"]⟩
  tokensDir := ⟨.root, ["out", "tokens"]⟩
  assetsDir := ⟨.root, ["out", "assets"]⟩
  componentsDir := ⟨.root, ["out", "components"]⟩
  twigDir := ⟨.root, ["out", "twig"]⟩
  timeout := .int 10
  batchSize := 1
  rasterScale := .int 2
  downloadWorkers := 1

namespace Exporter

lemma exec_jobs (urls : Value) (batch : List Layer) (s : World) :
    ∃ journal, (jobs urls batch).exec s = (jobsAmong urls batch, { s with journal }) := by
  induction batch generalizing s with
  | nil => exact ⟨s.journal, rfl⟩
  | cons layer rest ih =>
    have step (url : Value) : ∃ journal,
        (if url.truthy then do return (layer, url) :: (← jobs urls rest)
          else do
            Action.log .warning ("⚠ No image URL for node: " ++ layer.name.display ++ " (" ++
              layer.id.display ++ ")")
            jobs urls rest : Action (List (Layer × Value))).exec s =
          (if url.truthy then do return (layer, url) :: (← jobsAmong urls rest)
            else jobsAmong urls rest, { s with journal }) := by
      rw [exec_ite]
      split
      · obtain ⟨journal, h⟩ := ih s
        refine ⟨journal, ?_⟩
        rw [exec_bind, h]
        cases jobsAmong urls rest <;> rfl
      · rw [exec_bind, exec_log]
        exact ih _
    rw [jobs, jobsAmong, exec_bind, exec_ofExcept]
    rcases urls.fields with fault | fields
    · exact ⟨s.journal, rfl⟩
    · simp only [exec_bind, exec_ofExcept, ok_bind]
      rcases layer.id.key with fault | (_ | _ | _ | _)
      · exact ⟨s.journal, rfl⟩
      all_goals exact step _

lemma steady_jobs (urls : Value) (batch : List Layer) : Steady (jobs urls batch) where
  sameFiles s := by
    obtain ⟨journal, h⟩ := exec_jobs urls batch s
    rw [h]
    exact ⟨rfl, rfl, rfl, rfl⟩
  same {s t} hr := by
    obtain ⟨_, hs⟩ := exec_jobs urls batch s
    obtain ⟨_, ht⟩ := exec_jobs urls batch t
    rw [hs, ht]
    exact ⟨rfl, hr⟩

lemma jobsAmong_sublist {urls : Value} {batch : List Layer} {js : List (Layer × Value)}
    (h : jobsAmong urls batch = .ok js) : (js.map Prod.fst).Sublist batch := by
  induction batch generalizing js with
  | nil =>
    cases h
    exact .slnil
  | cons layer rest ih =>
    obtain ⟨fields, -, h⟩ := bind_eq_ok.1 h
    obtain ⟨key, -, h⟩ := bind_eq_ok.1 h
    simp only at h
    split at h
    · obtain ⟨others, ho, h⟩ := bind_eq_ok.1 h
      cases h
      exact (ih ho).cons_cons layer
    · exact (ih h).cons layer

lemma sublist_of_yields {urls : Value} {batch : List Layer} {js : List (Layer × Value)}
    (h : Yields (jobs urls batch) js) : (js.map Prod.fst).Sublist batch := by
  obtain ⟨s, t, h⟩ := h
  obtain ⟨journal, he⟩ := exec_jobs urls batch s
  rw [h] at he
  exact jobsAmong_sublist (Prod.mk.inj he).1.symm

/-! ### Footprints -/

variable (exporter : Exporter)

lemma hasFootprint_fetch (format : ExportFormat) (layer : Layer) (url : Value) :
    HasFootprint (fun n => fileName layer format = .ok n) (exporter.fetch format layer url) := by
  refine HasFootprint.after_steady_of_yields (.ofExcept _) fun file hfile => ?_
  have hname := eq_ok_of_yields hfile
  obtain ⟨stem, hfilename, -⟩ := isFileName_of_fileName hname
  rw [hfilename.child_eq]
  simp only [bind_assoc]
  rw [recover_bind]
  refine HasFootprint.then_steady ?_ fun ended => ?_
  · refine HasFootprint.after_steady (exporter.client.steady_download url).attempt fun outcome => ?_
    rcases outcome with fault | content
    · refine .of_steady (.ite ?_ (.throw _)) _
      exact (Steady.log ..).bind fun _ => .pure _
    · refine (HasFootprint.recover_writeFile _ _ hfilename.ne_dots true false _).mono fun n hn => ?_
      rw [hn]
      exact hname
  · exact .ite ((Steady.log ..).bind fun _ => .pure _) (.pure _)

lemma hasFootprint_fetchBatch {format : ExportFormat} {batch : List Layer} (urls : Value)
    (hd : batch.Pairwise (Apart format)) :
    HasFootprint (fun n => ∃ layer ∈ batch, fileName layer format = .ok n)
      (exporter.fetchBatch format batch urls) := by
  refine HasFootprint.after_steady_of_yields (steady_jobs urls batch) fun js hjs => ?_
  have hsub := sublist_of_yields hjs
  refine HasFootprint.then_steady ?_ fun files => .ofExcept _
  refine (HasFootprint.all (fun job n => fileName job.1 format = .ok n)
    (fun job _ => exporter.hasFootprint_fetch format job.1 job.2) ?_).mono ?_
  · exact List.pairwise_map.1 (hd.sublist hsub)
  · rintro n ⟨job, hjob, hn⟩
    exact ⟨job.1, hsub.subset (List.mem_map_of_mem hjob), hn⟩

lemma steady_addresses (format : ExportFormat) (index total : Nat) (batch : List Layer) :
    Steady (exporter.addresses format index total batch) :=
  Steady.recover ((exporter.client.steady_imageUrls ..).bind fun urls => .pure (some urls))
    fun _ => (Steady.log ..).bind fun _ => .pure none

lemma hasFootprint_exportBatches {format : ExportFormat} (total index : Nat) (exported : Exported)
    {batches : List (List Layer)} (hd : batches.flatten.Pairwise (Apart format)) :
    HasFootprint (fun n => ∃ layer ∈ batches.flatten, fileName layer format = .ok n)
      (exporter.exportBatches format total index exported batches) := by
  induction batches generalizing index exported with
  | nil => exact .of_steady (.pure exported) _
  | cons batch rest ih =>
    rw [List.flatten_cons, List.pairwise_append] at hd
    have hrest (index : Nat) (exported : Exported) := ih index exported hd.2.1
    refine HasFootprint.after_steady (.log ..) fun _ => ?_
    refine HasFootprint.after_steady (exporter.steady_addresses ..) fun urls => ?_
    rcases urls with _ | urls
    · refine (hrest _ _).mono ?_
      rintro n ⟨layer, hl, hn⟩
      exact ⟨layer, by rw [List.flatten_cons]; exact List.mem_append_right _ hl, hn⟩
    · refine ((exporter.hasFootprint_fetchBatch urls hd.1).bind (fun found => hrest _ _) ?_).mono ?_
      · rintro n ⟨l, hl, hln⟩ ⟨l', hl', hln'⟩
        exact hd.2.2 l hl l' hl' n hln hln'
      · rintro n (⟨layer, hl, hn⟩ | ⟨layer, hl, hn⟩)
        · exact ⟨layer, by rw [List.flatten_cons]; exact List.mem_append_left _ hl, hn⟩
        · exact ⟨layer, by rw [List.flatten_cons]; exact List.mem_append_right _ hl, hn⟩

lemma hasFootprint_exportFormat {format : ExportFormat} {layers : List Layer}
    (hd : layers.Pairwise (Apart format)) :
    HasFootprint (fun n => ∃ layer ∈ layers, fileName layer format = .ok n)
      (exporter.exportFormat format layers) := by
  refine HasFootprint.after_steady_of_yields (.ofExcept _) fun parts hparts => ?_
  have hsub := batches_flatten_sublist (eq_ok_of_yields hparts)
  refine (exporter.hasFootprint_exportBatches _ _ _ (hd.sublist hsub)).mono ?_
  rintro n ⟨layer, hl, hn⟩
  exact ⟨layer, hsub.subset hl, hn⟩

lemma hasFootprint_exportCandidates {candidates : List Layer}
    (hd : candidates.Pairwise fun a b => ∀ file, HasFile a file → ¬ HasFile b file) :
    HasFootprint (fun n => ∃ layer ∈ candidates, HasFile layer n)
      (exporter.exportCandidates candidates) := by
  refine HasFootprint.after_steady_of_yields (.ofExcept _) fun parts hparts => ?_
  have hparts := eq_ok_of_yields hparts
  refine HasFootprint.after_steady (.log ..) fun _ => ?_
  refine HasFootprint.then_steady ?_ fun tables => (Steady.ofExcept _).bind fun records =>
    .ite ((Steady.log ..).bind fun _ => .pure _) (.pure _)
  refine (HasFootprint.all
    (fun format n => ∃ layer ∈ parts.of format, fileName layer format = .ok n)
    (fun format _ => exporter.hasFootprint_exportFormat ?_) ?_).mono ?_
  · have hformat : ∀ layer ∈ parts.of format, layer.exportFormat? = .ok (some format) :=
      exportFormat_of_mem hparts
    refine (hd.sublist (partition_sublist hparts format)).imp_of_mem fun ha hb hab file hf hf' => ?_
    exact hab file ⟨format, hformat _ ha, hf⟩ ⟨format, hformat _ hb, hf'⟩
  · refine List.Pairwise.filter _ (List.pairwise_pair.2 ?_)
    rintro n ⟨a, -, ha⟩ ⟨b, -, hb⟩
    obtain ⟨stem, hstem, -⟩ := isFileName_of_fileName ha
    obtain ⟨stem', hstem', -⟩ := isFileName_of_fileName hb
    exact absurd (hstem.inj hstem').2 (by decide)
  · rintro n ⟨format, -, layer, hl, hn⟩
    exact ⟨layer, (partition_sublist hparts format).subset hl, format,
      exportFormat_of_mem hparts layer hl, hn⟩

theorem hasFootprint_exportAll {layers : List Layer} (hd : SharesNoFiles layers) :
    HasFootprint (fun n => ∃ layer ∈ layers, HasFile layer n) (exporter.exportAll layers) := by
  refine HasFootprint.after_steady (.log ..) fun _ => ?_
  refine HasFootprint.after_steady_of_yields (.ofLogged (gives_candidates layers)) fun cs hcs => ?_
  have hcs := hcs.of_gives (gives_candidates layers)
  have hcandidate := isAssetCandidate_of_mem hcs
  refine HasFootprint.ite (.of_steady ((Steady.log ..).bind fun _ => .pure []) _) ?_
  have hapart : cs.Pairwise fun a b => ∀ file, HasFile a file → ¬ HasFile b file :=
    (hd.sublist (candidatesAmong_sublist hcs)).imp_of_mem fun ha hb hab =>
      hab (hcandidate _ ha) (hcandidate _ hb)
  refine (exporter.hasFootprint_exportCandidates hapart).mono ?_
  rintro n ⟨layer, hl, hn⟩
  exact ⟨layer, (candidatesAmong_sublist hcs).subset hl, hn⟩

end Exporter

end Asset

end Handoff
