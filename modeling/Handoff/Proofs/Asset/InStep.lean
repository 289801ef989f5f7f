import Handoff.Proofs.Asset.Footprint
import Handoff.Proofs.World.InStep

/-!
Exports in step.

Two exports with the same answers, from runs that are in step and end in compatible trees, download
the same pictures, save the same of them, and give the same records.
-/

namespace Handoff.Asset

open Action Config Design Files Remote Workspace

namespace Exporter

variable (exporter : Exporter) {w w' : Workspace}

lemma keepsStep_fetch (hc : Compatible w w') (format : ExportFormat) (layer : Layer) (url : Value) :
    KeepsStep w w' (exporter.fetch format layer url) := by
  refine KeepsStep.bind_of_yields (.of_steady (.ofExcept _)) fun file hfile => ?_
  obtain ⟨stem, hfilename, -⟩ := isFileName_of_fileName (eq_ok_of_yields hfile)
  simp only [bind_assoc]
  rw [recover_bind]
  refine KeepsStep.bind ?_ fun ended => ?_
  · refine KeepsStep.after_steady (exporter.client.steady_download url).attempt fun outcome => ?_
    rcases outcome with fault | content
    · refine .of_steady (.ite ?_ (.throw _))
      exact (Steady.log ..).bind fun _ => .pure _
    · exact KeepsStep.recover_writeFile hc (hfilename.endsIn _) _ _ true false _
  · exact .of_steady (.ite ((Steady.log ..).bind fun _ => .pure _) (.pure _))

lemma keepsStep_fetchBatch (hc : Compatible w w') (format : ExportFormat) (batch : List Layer)
    (urls : Value) : KeepsStep w w' (exporter.fetchBatch format batch urls) := by
  refine KeepsStep.after_steady (steady_jobs urls batch) fun jobs => ?_
  have hall : KeepsStep w w'
      (Action.all (jobs.map fun job => exporter.fetch format job.1 job.2)) :=
    .all _ fun job _ => exporter.keepsStep_fetch hc format job.1 job.2
  exact hall.bind fun files => .of_steady (.ofExcept _)

lemma keepsStep_exportBatches (hc : Compatible w w') (format : ExportFormat) (total index : Nat)
    (exported : Exported) (batches : List (List Layer)) :
    KeepsStep w w' (exporter.exportBatches format total index exported batches) := by
  induction batches generalizing index exported with
  | nil => exact .of_steady (.pure exported)
  | cons batch rest ih =>
    refine KeepsStep.after_steady (.log ..) fun _ => ?_
    refine KeepsStep.after_steady (exporter.steady_addresses ..) fun urls => ?_
    rcases urls with _ | urls
    · exact ih _ _
    · exact (exporter.keepsStep_fetchBatch hc format batch urls).bind fun found => ih _ _

lemma keepsStep_exportFormat (hc : Compatible w w') (format : ExportFormat) (layers : List Layer) :
    KeepsStep w w' (exporter.exportFormat format layers) :=
  KeepsStep.after_steady (.ofExcept _) fun _ => exporter.keepsStep_exportBatches hc ..

lemma keepsStep_exportCandidates (hc : Compatible w w') (candidates : List Layer) :
    KeepsStep w w' (exporter.exportCandidates candidates) := by
  refine KeepsStep.after_steady (.ofExcept _) fun parts => ?_
  refine KeepsStep.after_steady (.log ..) fun _ => ?_
  have hall (formats : List ExportFormat) : KeepsStep w w' (Action.all (formats.map fun format =>
      exporter.exportFormat format (parts.of format))) :=
    .all _ fun format _ => exporter.keepsStep_exportFormat hc format _
  exact (hall _).bind fun tables => .of_steady ((Steady.ofExcept _).bind fun records =>
    .ite ((Steady.log ..).bind fun _ => .pure _) (.pure _))

theorem keepsStep_exportAll (hc : Compatible w w') (layers : List Layer) :
    KeepsStep w w' (exporter.exportAll layers) := by
  refine KeepsStep.after_steady (.log ..) fun _ => ?_
  refine KeepsStep.after_steady (.ofLogged (gives_candidates layers)) fun candidates => ?_
  exact .ite (.of_steady ((Steady.log ..).bind fun _ => .pure []))
    (exporter.keepsStep_exportCandidates hc candidates)

end Exporter

end Handoff.Asset
