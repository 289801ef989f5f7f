import Handoff.Proofs.Asset.Failing
import Handoff.Proofs.Asset.Saving
import Handoff.Proofs.World.InStep

/-!
Which pictures an export saves.

It saves pictures of the layers that it asks for alone. When no request fails and every answer gives
addresses for all layers of its batch, it has tried to save all of them at the end: each is saved,
or the tree refuses it.
-/

namespace Handoff.Asset

open Action Config Design Files Remote Workspace

/-- The path of the picture of a layer that is asked for. -/
def IsAskedPicture (settings : Settings) (layers : List Layer) (path : Path) : Prop :=
  ∃ format layer file, Asks settings layers format layer ∧ fileName layer format = .ok file ∧
    path = settings.assetsDir.child file

/-- No request failed, and every answer gave addresses for all layers that were asked about. -/
def Complete (events : List Event) : Prop :=
  ∀ e ∈ events, ∀ layer, e.Fails layer → e.stage = .saving

lemma Complete.of_append {before after : List Event} (h : Complete (before ++ after)) :
    Complete before ∧ Complete after := List.forall_mem_append.1 h

/-- The address that an answer gives for a layer, if it gives one. -/
def urlOf? (urls : Value) (layer : Layer) : Option Text :=
  match urls with
  | .record fields =>
    match fields.lookup (idText layer) with
    | some (.text url) => if url = "" then none else some url
    | _ => none
  | _ => none

lemma urlOf?_eq_some_iff {urls : Value} {layer : Layer} {url : Text} :
    urlOf? urls layer = some url ↔ Exporter.GivesUrl urls layer url := by
  constructor
  · intro h
    unfold urlOf? at h
    split at h
    · rename_i fields
      split at h
      · rename_i found hlookup
        split at h
        · cases h
        · rename_i hne
          cases h
          exact ⟨fields, rfl, hlookup, hne⟩
      · cases h
    · cases h
  · rintro ⟨fields, rfl, hlookup, hne⟩
    simp only [urlOf?, hlookup, if_neg hne]

/-- The event leaves some layer without its picture before anything is saved. -/
def Event.misses : Event → Bool
  | .asked _ batch (.ok urls) => batch.any fun layer => (urlOf? urls layer).isNone
  | .asked _ batch (.error _) => !batch.isEmpty
  | .downloaded _ _ answer => !answer.isOk
  | .saved .. => false

lemma Event.misses_iff {e : Event} :
    e.misses = true ↔ ∃ layer, e.Fails layer ∧ e.stage ≠ .saving := by
  cases e with
  | asked format batch answer =>
    have hstage : (Event.asked format batch answer).stage ≠ .saving := by
      intro h
      cases h
    cases answer with
    | ok urls =>
      simp only [misses, List.any_eq_true, Option.isNone_iff_eq_none,
        Option.eq_none_iff_forall_ne_some, ne_eq, urlOf?_eq_some_iff, Fails]
      exact exists_congr fun layer => (and_iff_left hstage).symm
    | error fault =>
      simp only [misses, Bool.not_eq_true', List.isEmpty_eq_false_iff_exists_mem, Fails]
      exact exists_congr fun layer => (and_iff_left hstage).symm
  | downloaded layer url answer =>
    cases answer with
    | ok content =>
      refine ⟨fun h => absurd h Bool.false_ne_true, ?_⟩
      rintro ⟨_, ⟨-, _, hanswer⟩, -⟩
      cases hanswer
    | error fault =>
      refine ⟨fun _ => ⟨layer, ⟨rfl, fault, rfl⟩, ?_⟩, fun _ => rfl⟩
      intro hstage
      cases hstage
  | saved =>
    refine ⟨fun h => absurd h Bool.false_ne_true, ?_⟩
    rintro ⟨_, -, hstage⟩
    exact absurd rfl hstage

instance : DecidablePred Complete := fun events =>
  decidable_of_iff (∀ e ∈ events, e.misses = false) <| forall₂_congr fun e _ => by
    rw [← Bool.not_eq_true, Event.misses_iff]
    simp only [not_exists, not_and, not_not]

namespace Exporter

variable (exporter : Exporter) {s t : World} {format : ExportFormat} {layer : Layer}

lemma carriesSaves_spreads {names : Text → Prop} {paths : Path → Prop}
    (h : ∀ file, names file → IsPictureName file ∧ paths (exporter.settings.assetsDir.child file)) :
    exporter.CarriesSaves names (Spreads paths) where
  toCarries := carries_spreads paths
  save {file} hfile content := by
    obtain ⟨⟨layer, format, hname⟩, hpath⟩ := h file hfile
    obtain ⟨stem, hfilename, -⟩ := isFileName_of_fileName hname
    exact spreads_writeFile hpath (hfilename.endsIn _) _ _

/-- An export saves pictures of the layers that it asks for. -/
theorem spreads_exportAll (layers : List Layer) :
    Leads (Spreads (IsAskedPicture exporter.settings layers)) (exporter.exportAll layers) := by
  have hcarries : exporter.CarriesSaves
      (fun file => ∃ format layer, Asks exporter.settings layers format layer ∧
        fileName layer format = .ok file) (Spreads (IsAskedPicture exporter.settings layers)) := by
    refine exporter.carriesSaves_spreads ?_
    rintro file ⟨format, layer, hasks, hname⟩
    exact ⟨⟨layer, format, hname⟩, format, layer, file, hasks, hname, rfl⟩
  exact hcarries.exportAll fun format layer hasks file hname => ⟨format, layer, hasks, hname⟩

lemma carriesSaves_anywhere : exporter.CarriesSaves IsPictureName (Spreads fun _ => True) :=
  exporter.carriesSaves_spreads fun _ hname => ⟨hname, trivial⟩

/-! ### Pictures that were tried -/

/-- The picture of the layer has been saved, or the tree refuses it. -/
def Settled (format : ExportFormat) (s : World) (layer : Layer) : Prop :=
  ∀ file, fileName layer format = .ok file →
    exporter.settings.assetsDir.child file ∈ s.visited ∨
      s.workspace.Refuses (exporter.settings.assetsDir.child file)

variable {exporter}

lemma Settled.later (h : exporter.Settled format s layer) (hs : s.workspace.Sound)
    (hst : Spreads (fun _ => True) s t) : exporter.Settled format t layer := by
  obtain ⟨saved, hvisited, hspread⟩ := hst hs
  intro file hfile
  exact (h file hfile).imp (fun hmem => hvisited.mem_iff.2 (List.mem_append_left _ hmem))
    hspread.grows.refuses

lemma settled_of_exec_fetch {url : Value} {result : Option Text} (hs : s.workspace.Sound)
    (hcomplete : Complete (exporter.fetchEvents format layer url s))
    (h : (exporter.fetch format layer url).exec s = (.ok result, t)) :
    exporter.Settled format t layer := by
  intro file hfile
  obtain ⟨name, s', hexec, h⟩ := exec_bind_eq_ok.1 h
  obtain ⟨hname, rfl⟩ := exec_ofExcept_eq_ok.1 hexec
  cases hfile.symm.trans hname
  obtain ⟨ended, v, hended, h⟩ := exec_bind_eq_ok.1 h
  -- After the recovery only messages follow.
  have hlast : SameFiles v t :=
    Steady.sameFiles_of_exec (.ite ((Steady.log ..).bind fun _ => .pure _) (.pure _)) h
  rw [visited_of_sameFiles hlast, hlast.workspace]
  rw [exec_recover] at hended
  obtain ⟨answer, u, hanswer⟩ : ∃ answer u, (exporter.client.download url).exec s = (answer, u) :=
    ⟨_, _, rfl⟩
  have hsame := (exporter.client.steady_download url).sameFiles_of_exec hanswer
  rcases answer with fault | content
  · -- A download that failed is a failure of a request.
    have hmem : .downloaded layer url (.error fault) ∈ exporter.fetchEvents format layer url s := by
      unfold fetchEvents
      rw [hanswer]
      exact List.mem_cons_self
    cases hcomplete _ hmem layer ⟨rfl, fault, rfl⟩
  · rcases hwrite : (writeFile exporter.root (exporter.settings.assetsDir.child file)
      content).exec u with ⟨fault | written, v'⟩
    · simp only [exec_bind, hanswer, hwrite] at hended
      split at hended
      · rename_i hsystem
        cases hended
        have hu : u.workspace.Sound := hsame.workspace ▸ hs
        obtain ⟨stem, hfilename, -⟩ := isFileName_of_fileName hfile
        have hends := hfilename.endsIn exporter.settings.assetsDir
        obtain ⟨a, ps, hpath⟩ := hends.exists_eq
        rw [hpath] at hwrite ⊢
        exact Or.inr ((HasFootprint.saved_of_exec hu hends.ne_dots hwrite).refuses rfl hsystem)
      · cases hended
    · simp only [exec_bind, hanswer, hwrite] at hended
      cases hended
      exact Or.inl ((visited_of_writeFile hwrite).mem_iff.2 (by simp))

lemma settled_of_exec_fetches {jobs : List (Layer × Value)} {files : List (Option Text)}
    (hs : s.workspace.Sound) (hcomplete : Complete (exporter.jobEvents format jobs s))
    (h : (Action.all (jobs.map fun job => exporter.fetch format job.1 job.2)).exec s =
      (.ok files, t)) : ∀ job ∈ jobs, exporter.Settled format t job.1 := by
  induction jobs generalizing s files with
  | nil => exact List.forall_mem_nil _
  | cons job rest ih =>
    rw [List.map_cons, exec_all_cons_eq_ok] at h
    obtain ⟨result, u, hfirst, h⟩ := exec_bind_eq_ok.1 h
    obtain ⟨others, v, hrest, h⟩ := exec_bind_eq_ok.1 h
    cases h
    rw [jobEvents, hfirst] at hcomplete
    obtain ⟨hcomplete, hcompletes⟩ := hcomplete.of_append
    have hpictures (job : Layer × Value) := exporter.carriesSaves_anywhere.fetch
      (fun file hfile => ⟨job.1, format, hfile⟩) job.2
    have hfetch := hpictures job s
    have hfetches := Leads.all (carries_spreads _) (fun job : Layer × Value =>
      exporter.fetch format job.1 job.2) (fun job (_ : job ∈ rest) => hpictures job) u
    rw [hfirst] at hfetch
    rw [hrest] at hfetches
    have hu : u.workspace.Sound := (hfetch hs).elim fun _ h => h.2.sound
    refine List.forall_mem_cons.2 ⟨?_, ih hu hcompletes hrest⟩
    exact (settled_of_exec_fetch hs hcomplete hfirst).later hu hfetches

/-- A layer with an address is among the pictures of its batch. -/
lemma exists_job_of_mem {fields : Fields} {batch : List Layer} {jobs : List (Layer × Value)}
    (h : jobsAmong (.record fields) batch = .ok jobs) {key : Key} (hl : layer ∈ batch)
    (hkey : layer.id.key = .ok key) (hurl : (addressAt fields key).truthy = true) :
    ∃ job ∈ jobs, job.1 = layer := by
  induction batch generalizing jobs with
  | nil => cases hl
  | cons first rest ih =>
    obtain ⟨_, hfields, h⟩ := bind_eq_ok.1 h
    cases hfields
    obtain ⟨key', hkey', h⟩ := bind_eq_ok.1 h
    simp only at h
    rcases List.mem_cons.1 hl with rfl | hl
    · cases hkey.symm.trans hkey'
      rw [if_pos hurl] at h
      obtain ⟨others, -, h⟩ := bind_eq_ok.1 h
      cases h
      exact ⟨_, List.mem_cons_self, rfl⟩
    · split at h
      · obtain ⟨others, hothers, h⟩ := bind_eq_ok.1 h
        cases h
        obtain ⟨job, hjob, hlayer⟩ := ih hothers hl
        exact ⟨job, List.mem_cons_of_mem _ hjob, hlayer⟩
      · exact ih h hl

/-- Only layers with texts as ids are asked about. -/
lemma key_of_exec_ask {batch : List Layer} {urls : Value}
    (h : (exporter.ask format batch).exec s = (.ok urls, t)) (hl : layer ∈ batch) :
    layer.id.key = .ok (.text (idText layer)) := by
  obtain ⟨texts, u, htexts, -⟩ := exec_bind_eq_ok.1 h
  obtain ⟨htexts, -⟩ := exec_ofExcept_eq_ok.1 htexts
  obtain ⟨text, -, htext⟩ := exists_of_mem_forall₂ (forall₂_of_mapM htexts).flip
    (List.mem_map_of_mem hl)
  rw [idText]
  change layer.id.asText .wrongType = .ok text at htext
  unfold Value.asText at htext
  split at htext
  · rename_i hid
    rw [hid]
    rfl
  · cases htext

lemma settled_of_exec_exportBatch {batch : List Layer} {index total : Nat} {found : Exported}
    (hs : s.workspace.Sound) (hcomplete : Complete (exporter.batchEvents format batch s))
    (h : (exporter.exportBatch format index total batch).exec s = (.ok found, t)) :
    ∀ layer ∈ batch, exporter.Settled format t layer := by
  intro layer hl
  obtain ⟨urls?, u, haddresses, h⟩ := exec_bind_eq_ok.1 h
  rw [exec_addresses] at haddresses
  unfold batchEvents at hcomplete
  rcases hask : (exporter.ask format batch).exec s with ⟨fault | urls, v⟩ <;>
    rw [hask] at haddresses hcomplete
  · cases hcomplete _ List.mem_cons_self layer hl
  · cases haddresses
    obtain ⟨jobs, u', hjobs, h⟩ := exec_bind_eq_ok.1 h
    obtain ⟨files, v', hfiles, h⟩ := exec_bind_eq_ok.1 h
    obtain ⟨-, rfl⟩ := exec_ofExcept_eq_ok.1 h
    obtain ⟨journal, hexec⟩ := exec_jobs urls batch u
    obtain ⟨hok, rfl⟩ := Prod.mk.inj (hexec.symm.trans hjobs)
    obtain ⟨hasked, hevents⟩ := List.forall_mem_cons.1 hcomplete
    -- The answer has an address for the layer, so its picture was tried.
    obtain ⟨url, fields, rfl, hurl⟩ : ∃ url, GivesUrl urls layer url := by
      by_contra hnone
      cases hasked layer ⟨hl, fun url hgives => hnone ⟨url, hgives⟩⟩
    obtain ⟨htruthy, haddress⟩ := givesUrl_iff.1 ⟨fields, rfl, hurl⟩
    rw [haddress] at htruthy
    obtain ⟨job, hjob, rfl⟩ := exists_job_of_mem hok hl (key_of_exec_ask hask hl) htruthy
    have hbind : (Except.ok (.record fields) : Except Fault Value).bind
        (fun urls => jobsAmong urls batch) = .ok jobs := hok
    simp only [hbind] at hevents
    have halike : Alike u { u with journal } := ⟨journal, rfl⟩
    rw [← exporter.jobEvents_alike halike] at hevents
    have hsame := (exporter.steady_ask format batch).sameFiles_of_exec hask
    have hu : u.workspace.Sound := hsame.workspace ▸ hs
    exact settled_of_exec_fetches (s := { u with journal }) hu hevents hfiles job hjob

lemma settled_of_exec_exportBatches {batches : List (List Layer)} {total index : Nat}
    {exported table : Exported} (hne : ∀ batch ∈ batches, batch ≠ []) (hs : s.workspace.Sound)
    (hcomplete : Complete (exporter.batchesEvents format batches s))
    (h : (exporter.exportBatches format total index exported batches).exec s = (.ok table, t)) :
    ∀ layer ∈ batches.flatten, exporter.Settled format t layer := by
  induction batches generalizing s index exported with
  | nil => exact List.forall_mem_nil _
  | cons batch rest ih =>
    obtain ⟨hfirst, hrest⟩ := List.forall_mem_cons.1 hne
    rw [exportBatches_cons] at h
    obtain ⟨⟨⟩, u, hlog, h⟩ := exec_bind_eq_ok.1 h
    obtain ⟨found, v, hbatch, h⟩ := exec_bind_eq_ok.1 h
    have halike := alike_of_log hlog
    have hu : u.workspace.Sound := halike.workspace ▸ hs
    obtain ⟨-, hafter⟩ := exporter.handled_of_exec_exportBatch hfirst hbatch
    rw [← exporter.batchesEvents_alike halike, batchesEvents] at hcomplete
    obtain ⟨hcomplete, hcompletes⟩ := hcomplete.of_append
    rw [← exporter.batchesEvents_alike hafter] at hcompletes
    have hv : v.workspace.Sound := by
      rw [hafter.workspace]
      have hspreads := exporter.carriesSaves_anywhere.afterBatch (isPictureName_of_mem format batch)
      exact (hspreads u hu).elim fun _ h => h.2.sound
    have hbatches := exporter.carriesSaves_anywhere.exportBatches
      (isPictureName_of_mem format rest.flatten) total (index + 1) (exported.merge found) v
    rw [h] at hbatches
    rw [List.flatten_cons, List.forall_mem_append]
    refine ⟨fun layer hl => ?_, ih hrest hv hcompletes h⟩
    exact (settled_of_exec_exportBatch hu hcomplete hbatch layer hl).later hv hbatches

/-- No batch is empty. -/
lemma ne_nil_of_batches {layers : List Layer} {size : Int} {parts : List (List Layer)}
    (h : batches layers size = .ok parts) : ∀ part ∈ parts, part ≠ [] := by
  by_cases hsize : 1 ≤ size
  · obtain ⟨parts', hparts, hbatches⟩ := batches_of_pos layers hsize
    cases h.symm.trans hparts
    exact hbatches.ne_nil
  · rw [batches] at h
    split at h
    · cases h
    · rw [if_pos (by omega)] at h
      cases h
      exact List.forall_mem_nil _

lemma settled_of_exec_exportFormat {layers : List Layer} {parts : List (List Layer)}
    {table : Exported} (hparts : batches layers exporter.settings.batchSize = .ok parts)
    (hs : s.workspace.Sound) (hcomplete : Complete (exporter.formatEvents format layers s))
    (h : (exporter.exportFormat format layers).exec s = (.ok table, t)) :
    ∀ layer ∈ parts.flatten, exporter.Settled format t layer := by
  simp only [formatEvents, hparts] at hcomplete
  rw [exportFormat, exec_bind, exec_ofExcept, hparts] at h
  exact settled_of_exec_exportBatches (ne_nil_of_batches hparts) hs hcomplete h

lemma settled_of_exec_formats {partitions : Partitions} {formats : List ExportFormat}
    {tables : List Exported} (hs : s.workspace.Sound)
    (hcomplete : Complete (exporter.formatsEvents partitions formats s))
    (h : (Action.all (formats.map fun format =>
      exporter.exportFormat format (partitions.of format))).exec s = (.ok tables, t)) :
    ∀ format ∈ formats, ∀ parts,
      batches (partitions.of format) exporter.settings.batchSize = .ok parts →
        ∀ layer ∈ parts.flatten, exporter.Settled format t layer := by
  induction formats generalizing s tables with
  | nil => exact List.forall_mem_nil _
  | cons format rest ih =>
    rw [List.map_cons, exec_all_cons_eq_ok] at h
    obtain ⟨table, u, hfirst, h⟩ := exec_bind_eq_ok.1 h
    obtain ⟨others, v, hrest, h⟩ := exec_bind_eq_ok.1 h
    cases h
    rw [formatsEvents, hfirst] at hcomplete
    obtain ⟨hcomplete, hcompletes⟩ := hcomplete.of_append
    have hformats (format : ExportFormat) := exporter.carriesSaves_anywhere.exportFormat
      fun parts (_ : batches (partitions.of format) _ = .ok parts) =>
        isPictureName_of_mem format parts.flatten
    have hformat := hformats format s
    have hothers := Leads.all (carries_spreads _) (fun format =>
      exporter.exportFormat format (partitions.of format)) (fun f (_ : f ∈ rest) => hformats f) u
    rw [hfirst] at hformat
    rw [hrest] at hothers
    have hu : u.workspace.Sound := (hformat hs).elim fun _ h => h.2.sound
    refine List.forall_mem_cons.2 ⟨fun parts hparts layer hl => ?_, ih hu hcompletes hrest⟩
    exact (settled_of_exec_exportFormat hparts hs hcomplete hfirst layer hl).later hu hothers

/-- When all requests succeed and give addresses, the pictures of all layers that are asked for are
saved, unless the tree refuses them. -/
theorem settled_of_exec_exportAll {layers : List Layer} {records : List Record}
    (hs : s.workspace.Sound) (hcomplete : Complete (exporter.story layers s))
    (h : (exporter.exportAll layers).exec s = (.ok records, t)) :
    ∀ path, IsAskedPicture exporter.settings layers path →
      path ∈ t.visited ∨ t.workspace.Refuses path := by
  rintro path ⟨format, layer, file, hasks, hfile, rfl⟩
  obtain ⟨partitions, parts, hpartitions, hparts, hl⟩ := hasks
  have hof : layer ∈ partitions.of format := (batches_flatten_sublist hparts).subset hl
  obtain ⟨partitions', u, v, tables, hpartitions', hsu, htables, hvt⟩ :=
    exporter.exists_of_exec_exportAll h
  cases hpartitions.symm.trans hpartitions'
  unfold story at hcomplete
  simp only [hpartitions] at hcomplete
  rw [← exporter.formatsEvents_alike hsu] at hcomplete
  have hu : u.workspace.Sound := hsu.workspace ▸ hs
  rw [visited_of_sameFiles hvt, hvt.workspace]
  exact settled_of_exec_formats hu hcomplete htables format (Partitions.mem_formats hof) parts
    hparts layer hl file hfile

end Exporter

end Handoff.Asset
