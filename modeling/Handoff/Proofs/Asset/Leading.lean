import Handoff.Proofs.Asset.Story
import Handoff.Proofs.World.Leading

/-!
An export changes the state by its saves alone: a relation that every save leads to, and that
messages and requests respect, holds between the states before and after a whole export.
-/

namespace Handoff.Asset

open Action Config Design Files Remote

/-- The layer is in a batch of an export, in this format. -/
def Asks (settings : Settings) (layers : List Layer) (format : ExportFormat) (layer : Layer) : Prop :=
  ∃ partitions parts, (candidatesAmong layers).bind partition = .ok partitions ∧
    batches (partitions.of format) settings.batchSize = .ok parts ∧ layer ∈ parts.flatten

/-- The layers that are asked for are exported in the format of their batch. -/
lemma Asks.exported {settings : Settings} {layers : List Layer} {format : ExportFormat}
    {layer : Layer} (h : Asks settings layers format layer) :
    layer ∈ layers ∧ layer.exportFormat? = .ok (some format) := by
  obtain ⟨partitions, parts, hpartitions, hparts, hmem⟩ := h
  obtain ⟨candidates, hcandidates, hpartitions⟩ := bind_eq_ok.1 hpartitions
  have hof : layer ∈ partitions.of format := (batches_flatten_sublist hparts).subset hmem
  refine ⟨?_, exportFormat_of_mem hpartitions layer hof⟩
  exact (candidatesAmong_sublist hcandidates).subset
    ((partition_sublist hpartitions format).subset hof)

namespace Exporter

/-- A relation that carries over from state to state, and that saving a picture under one of some
names leads to. -/
structure CarriesSaves (exporter : Exporter) (names : Text → Prop) (r : World → World → Prop) :
    Prop extends Carries r where
  save : ∀ {file}, names file → ∀ content,
    Leads r (writeFile exporter.root (exporter.settings.assetsDir.child file) content)

namespace CarriesSaves

variable {exporter : Exporter} {names : Text → Prop} {r : World → World → Prop}
  {format : ExportFormat}

lemma fetch (h : exporter.CarriesSaves names r) {layer : Layer}
    (hl : ∀ file, fileName layer format = .ok file → names file) (url : Value) :
    Leads r (exporter.fetch format layer url) := by
  have hc := h.toCarries
  refine (Leads.of_steady hc (.ofExcept _)).bind_of_yields hc fun file hfile => ?_
  refine Leads.bind hc (.recover hc ?_ fun fault => ?_) fun ended => ?_
  · refine Leads.bind hc ?_ fun _ => .of_steady hc (.pure true)
    refine (Leads.of_steady hc (exporter.client.steady_download url)).bind hc fun content => ?_
    exact (h.save (hl file (eq_ok_of_yields hfile)) content).bind hc fun _ =>
      .of_steady hc (.pure _)
  · exact .of_steady hc ((Steady.log ..).bind fun _ => .pure false)
  · exact .of_steady hc (.ite ((Steady.log ..).bind fun _ => .pure _) (.pure _))

lemma fetchBatch (h : exporter.CarriesSaves names r) {batch : List Layer}
    (hl : ∀ layer ∈ batch, ∀ file, fileName layer format = .ok file → names file) (urls : Value) :
    Leads r (exporter.fetchBatch format batch urls) := by
  have hc := h.toCarries
  refine (Leads.of_steady hc (steady_jobs urls batch)).bind_of_yields hc fun jobs hjobs => ?_
  have hsub := (sublist_of_yields hjobs).subset
  have hall := Leads.all hc (fun job : Layer × Value => exporter.fetch format job.1 job.2)
    fun job hj => h.fetch (hl job.1 (hsub (List.mem_map_of_mem hj))) job.2
  exact hall.bind hc fun _ => .of_steady hc (.ofExcept _)

lemma afterBatch (h : exporter.CarriesSaves names r) {batch : List Layer}
    (hl : ∀ layer ∈ batch, ∀ file, fileName layer format = .ok file → names file) (s : World) :
    r s (exporter.afterBatch format batch s) := by
  have hask := Leads.of_steady h.toCarries (exporter.steady_ask format batch) s
  unfold Exporter.afterBatch
  rcases he : (exporter.ask format batch).exec s with ⟨fault | urls, t⟩ <;> rw [he] at hask
  · exact hask
  · exact h.trans hask (h.fetchBatch hl urls t)

lemma exportBatches (h : exporter.CarriesSaves names r) {batches : List (List Layer)}
    (hl : ∀ layer ∈ batches.flatten, ∀ file, fileName layer format = .ok file → names file)
    (total index : Nat) (exported : Exported) :
    Leads r (exporter.exportBatches format total index exported batches) := by
  have hc := h.toCarries
  induction batches generalizing index exported with
  | nil => exact .of_steady hc (.pure exported)
  | cons batch rest ih =>
    rw [List.flatten_cons, List.forall_mem_append] at hl
    refine (Leads.of_steady hc (.log ..)).bind hc fun _ =>
      (Leads.of_steady hc (exporter.steady_addresses ..)).bind hc fun urls => ?_
    rcases urls with _ | urls
    · exact ih hl.2 _ _
    · exact (h.fetchBatch hl.1 urls).bind hc fun found => ih hl.2 _ _

lemma exportFormat (h : exporter.CarriesSaves names r) {layers : List Layer}
    (hl : ∀ parts, batches layers exporter.settings.batchSize = .ok parts →
      ∀ layer ∈ parts.flatten, ∀ file, fileName layer format = .ok file → names file) :
    Leads r (exporter.exportFormat format layers) :=
  (Leads.of_steady h.toCarries (.ofExcept _)).bind_of_yields h.toCarries fun parts hparts =>
    h.exportBatches (hl parts (eq_ok_of_yields hparts)) _ _ _

lemma exportCandidates (h : exporter.CarriesSaves names r) {candidates : List Layer}
    (hl : ∀ format partitions parts, partition candidates = .ok partitions →
      batches (partitions.of format) exporter.settings.batchSize = .ok parts →
        ∀ layer ∈ parts.flatten, ∀ file, fileName layer format = .ok file → names file) :
    Leads r (exporter.exportCandidates candidates) := by
  have hc := h.toCarries
  refine (Leads.of_steady hc (.ofExcept _)).bind_of_yields hc fun partitions hpartitions => ?_
  refine (Leads.of_steady hc (.log ..)).bind hc fun _ => ?_
  have hall := Leads.all hc (fun format => exporter.exportFormat format (partitions.of format))
    fun format (_ : format ∈ partitions.formats) => h.exportFormat fun parts hparts =>
      hl format partitions parts (eq_ok_of_yields hpartitions) hparts
  refine hall.bind hc fun tables => (Leads.of_steady hc (.ofExcept _)).bind hc fun records => ?_
  exact .of_steady hc (.ite ((Steady.log ..).bind fun _ => .pure _) (.pure _))

/-- A relation that the saves of all pictures lead to is one that the export leads to. -/
theorem exportAll (h : exporter.CarriesSaves names r) {layers : List Layer}
    (hl : ∀ format layer, Asks exporter.settings layers format layer →
      ∀ file, fileName layer format = .ok file → names file) :
    Leads r (exporter.exportAll layers) := by
  have hc := h.toCarries
  refine (Leads.of_steady hc (.log ..)).bind hc fun _ => ?_
  refine (Leads.of_steady hc (.ofLogged (gives_candidates layers))).bind_of_yields hc fun cs hcs => ?_
  have hcs := hcs.of_gives (gives_candidates layers)
  refine .ite (.of_steady hc ((Steady.log ..).bind fun _ => .pure [])) (h.exportCandidates ?_)
  intro format partitions parts hpartitions hparts layer hlayer
  exact hl format layer ⟨partitions, parts, bind_eq_ok.2 ⟨cs, hcs, hpartitions⟩, hparts, hlayer⟩

end CarriesSaves

end Exporter

end Handoff.Asset
