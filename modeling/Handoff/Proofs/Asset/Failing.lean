import Handoff.Proofs.Asset.Exporting

/-!
Which failures an export survives.

An export that gives its records met only failures of the kinds that it recovers from; any other
failure, at any request, is the failure of the whole. A layer that a failure is about has no file.
-/

namespace Handoff.Asset

open Action Config Design Files Remote

namespace Event

/-- The steps on the way to a picture. -/
inductive Stage where
  | asking
  | downloading
  | saving

/-- The step that an event shows. -/
def stage : Event → Stage
  | asked .. => .asking
  | downloaded .. => .downloading
  | saved .. => .saving

/-- The event leaves a layer without its picture: a failure, or an answer without an address for
it. -/
def Fails (layer : Layer) : Event → Prop
  | asked _ batch (.ok urls) => layer ∈ batch ∧ ∀ url, ¬ Exporter.GivesUrl urls layer url
  | asked _ batch (.error _) => layer ∈ batch
  | downloaded l _ answer => l = layer ∧ ∃ fault, answer = .error fault
  | saved l _ outcome => l = layer ∧ ∃ fault, outcome = .error fault

end Event

/-- Every step is made at most once for a layer. -/
def Once (events : List Event) : Prop :=
  ∀ e ∈ events, ∀ e' ∈ events, ∀ layer, e.Concerns layer → e'.Concerns layer →
    e.stage = e'.stage → e = e'

lemma Once.append {before after : List Event} (h : Once before) (h' : Once after)
    (hu : Unrelated before after) : Once (before ++ after) := by
  intro e he e' he' layer hl hl' hstage
  rcases List.mem_append.1 he with he | he <;> rcases List.mem_append.1 he' with he' | he'
  · exact h e he e' he' layer hl hl' hstage
  · exact absurd hl' (hu e he e' he' layer hl)
  · exact absurd hl (hu e' he' e he layer hl')
  · exact h' e he e' he' layer hl hl' hstage

lemma Once.cons_asked {format : ExportFormat} {batch : List Layer} {answer : Except Fault Value}
    {events : List Event} (h : Once events) (hn : ∀ e ∈ events, ¬ e.IsAsked) :
    Once (.asked format batch answer :: events) := by
  have hstages : ∀ e ∈ events, e.stage ≠ .asking := by
    intro e he hstage
    refine hn e he ?_
    cases e with
    | asked => trivial
    | _ => cases hstage
  intro e he e' he' layer hl hl' hstage
  rcases List.mem_cons.1 he with rfl | he <;> rcases List.mem_cons.1 he' with rfl | he'
  · rfl
  · exact absurd hstage.symm (hstages e' he')
  · exact absurd hstage (hstages e he)
  · exact h e he e' he' layer hl hl' hstage

namespace Exporter

variable (exporter : Exporter) {s t : World} {format : ExportFormat}

/-! ### Every step is made once -/

lemma handled_of_exec_fetch {layer : Layer} {url : Value} {result : Option Text}
    (h : (exporter.fetch format layer url).exec s = (.ok result, t)) :
    ∀ e ∈ exporter.fetchEvents format layer url s, e.Handled := by
  rw [fetch, exec_bind, exec_ofExcept] at h
  rcases hfile : fileName layer format with fault | file
  · rw [hfile] at h
    cases h
  rw [hfile] at h
  simp only [exec_bind, exec_recover] at h
  unfold fetchEvents
  rcases hd : (exporter.client.download url).exec s with ⟨fault | content, u⟩
  · have hsys : fault.ofSystem = true := by
      by_contra hsys
      simp [hd, hsys] at h
    simpa [Event.Handled] using hsys
  · simp only [hd, hfile] at h ⊢
    rcases hw : (writeFile exporter.root (exporter.settings.assetsDir.child file) content).exec u
      with ⟨fault | written, v⟩
    · have hsys : fault.ofSystem = true := by
        by_contra hsys
        simp [hw, hsys] at h
      simpa [Event.Handled] using hsys
    · simp [Event.Handled]

lemma handled_of_results_fetches {jobs : List (Layer × Value)} {files : List (Option Text)}
    (h : results (jobs.map fun job => exporter.fetch format job.1 job.2) s = (files.map .ok, t)) :
    ∀ e ∈ exporter.jobEvents format jobs s, e.Handled := by
  induction jobs generalizing s files with
  | nil => simp [jobEvents]
  | cons job rest ih =>
    rw [List.map_cons, results_cons, Prod.mk.injEq] at h
    obtain ⟨hresults, rfl⟩ := h
    cases files with
    | nil => cases hresults
    | cons file files =>
      rw [List.map_cons, List.cons.injEq] at hresults
      rw [jobEvents, List.forall_mem_append]
      refine ⟨exporter.handled_of_exec_fetch (Prod.ext hresults.1 rfl), ?_⟩
      exact ih (Prod.ext hresults.2 rfl)

lemma handled_of_exec_fetchBatch {batch : List Layer} {urls : Value} {found : Exported}
    (h : (exporter.fetchBatch format batch urls).exec s = (.ok found, t)) :
    ∃ jobs, jobsAmong urls batch = .ok jobs ∧
      ∀ e ∈ exporter.jobEvents format jobs s, e.Handled := by
  obtain ⟨journal, hexec⟩ := exec_jobs urls batch s
  obtain ⟨jobs, u, hjobs, h⟩ := exec_bind_eq_ok.1 h
  obtain ⟨hok, rfl⟩ := Prod.mk.inj (hexec.symm.trans hjobs)
  obtain ⟨files, v, hfiles, -⟩ := exec_bind_eq_ok.1 h
  rw [exec_all] at hfiles
  obtain ⟨hresults, hv⟩ := Prod.mk.inj hfiles
  have halike : Alike s { s with journal } := ⟨journal, rfl⟩
  refine ⟨jobs, hok, ?_⟩
  rw [← exporter.jobEvents_alike halike]
  exact exporter.handled_of_results_fetches (Prod.ext (mapM_id_eq_ok.1 hresults) hv)

/-- Addresses for a layer are only found in a record. -/
lemma exists_fields_of_jobsAmong {urls : Value} {batch : List Layer} {jobs : List (Layer × Value)}
    (hne : batch ≠ []) (h : jobsAmong urls batch = .ok jobs) : ∃ fields, urls = .record fields := by
  cases batch with
  | nil => exact absurd rfl hne
  | cons layer rest =>
    obtain ⟨fields, hfields, -⟩ := bind_eq_ok.1 h
    cases urls with
    | record fields' => exact ⟨fields', rfl⟩
    | _ => cases hfields

lemma handled_of_exec_exportBatch {batch : List Layer} (hne : batch ≠ []) {index total : Nat}
    {found : Exported} (h : (exporter.exportBatch format index total batch).exec s = (.ok found, t)) :
    (∀ e ∈ exporter.batchEvents format batch s, e.Handled) ∧
      Alike (exporter.afterBatch format batch s) t := by
  obtain ⟨urls?, u, haddresses, h⟩ := exec_bind_eq_ok.1 h
  rw [exec_addresses] at haddresses
  unfold batchEvents afterBatch
  rcases hask : (exporter.ask format batch).exec s with ⟨fault | urls, v⟩
  · rw [hask] at haddresses
    simp only at haddresses
    split at haddresses
    · rename_i hhandled
      cases haddresses
      cases h
      refine ⟨?_, _, rfl⟩
      simpa [Except.bind, Event.Handled] using hhandled
    · cases haddresses
  · rw [hask] at haddresses
    cases haddresses
    obtain ⟨jobs, hjobs, hh⟩ := exporter.handled_of_exec_fetchBatch h
    have hbind : (Except.ok urls : Except Fault Value).bind
        (fun urls => jobsAmong urls batch) = .ok jobs := hjobs
    simp only [hbind, show ((exporter.fetchBatch format batch urls).exec u).2 = t from
      congrArg Prod.snd h]
    exact ⟨List.forall_mem_cons.2 ⟨exists_fields_of_jobsAmong hne hjobs, hh⟩, .refl t⟩

/-- An export that gives its records exports its formats in order, between messages. -/
lemma exists_of_exec_exportAll {layers : List Layer} {records : List Record}
    (h : (exporter.exportAll layers).exec s = (.ok records, t)) :
    ∃ partitions u v tables, (candidatesAmong layers).bind partition = .ok partitions ∧
      Alike s u ∧ (Action.all (partitions.formats.map fun format =>
        exporter.exportFormat format (partitions.of format))).exec u = (.ok tables, v) ∧
      SameFiles v t := by
  obtain ⟨⟨⟩, u, hlog, h⟩ := exec_bind_eq_ok.1 h
  obtain ⟨cs, v, hcandidates, h⟩ := exec_bind_eq_ok.1 h
  obtain ⟨journal, hexec⟩ := exec_ofLogged_of_gives (gives_candidates layers) u
  obtain ⟨hok, rfl⟩ := Prod.mk.inj (hexec.symm.trans hcandidates)
  have halike : Alike s { u with journal } := (alike_of_log hlog).trans ⟨journal, rfl⟩
  rw [hok]
  rw [exec_ite] at h
  split at h
  · -- Without candidates there is no format to export.
    rename_i hempty
    rw [List.isEmpty_iff.1 hempty]
    refine ⟨⟨[], []⟩, _, _, [], rfl, halike, rfl, Steady.sameFiles_of_exec ?_ h⟩
    exact (Steady.log ..).bind fun _ => .pure _
  · obtain ⟨partitions, w, hexec', h⟩ := exec_bind_eq_ok.1 h
    obtain ⟨hpartition, rfl⟩ := exec_ofExcept_eq_ok.1 hexec'
    obtain ⟨⟨⟩, x, hfound, h⟩ := exec_bind_eq_ok.1 h
    obtain ⟨tables, y, htables, h⟩ := exec_bind_eq_ok.1 h
    refine ⟨partitions, x, y, tables, hpartition, halike.trans (alike_of_log hfound), htables,
      Steady.sameFiles_of_exec ?_ h⟩
    exact (Steady.ofExcept _).bind fun records =>
      .ite ((Steady.log ..).bind fun _ => .pure _) (.pure _)

end Exporter

end Handoff.Asset
