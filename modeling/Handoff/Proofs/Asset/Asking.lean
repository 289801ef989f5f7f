import Handoff.Asset.Export
import Handoff.Proofs.World.Asking

/-!
The requests of an export: for the addresses of pictures, and for the pictures at them.
-/

namespace Handoff.Asset

open Action Config Design Files Remote

/-- A request for the addresses of pictures, or for the picture at an address. -/
def IsPictureRequest (client : Client) (fileKey : Value) (r : Request) : Prop :=
  (∃ ids format scale, r = client.exportRequest fileKey ids format scale) ∨
    ∃ url, r = client.downloadRequest url

namespace Exporter

variable {client client' : Client} {settings : Settings} {root : Option Path} {n : Nat}

lemma echoes_fetch (h : client.AgreesFrom n client') (format : ExportFormat) (layer : Layer)
    (url : Value) : Echoes n (IsPictureRequest client settings.fileKey)
      (fetch ⟨client, settings, root⟩ format layer url)
      (fetch ⟨client', settings, root⟩ format layer url) := by
  refine (Echoes.ofExcept _).bind fun file => ?_
  refine Echoes.bind (.recover ?_ fun fault => ?_) fun ended => ?_
  · refine Echoes.bind ?_ fun _ => .pure true
    exact (Echoes.download h (.inr ⟨url, rfl⟩)).bind fun content =>
      (Echoes.writeFile ..).bind fun _ => .pure _
  · exact (Echoes.log ..).bind fun _ => .pure false
  · exact .ite ((Echoes.log ..).bind fun _ => .pure _) (.pure _)

lemma echoes_jobs (kind : Request → Prop) (urls : Value) (layers : List Layer) :
    Echoes n kind (jobs urls layers) (jobs urls layers) := by
  induction layers with
  | nil => exact .pure []
  | cons layer rest ih =>
    exact (Echoes.ofExcept _).bind fun fields => (Echoes.ofExcept _).bind fun key =>
      .ite (ih.bind fun others => .pure _) ((Echoes.log ..).bind fun _ => ih)

lemma echoes_fetchBatch (h : client.AgreesFrom n client') (format : ExportFormat)
    (batch : List Layer) (urls : Value) : Echoes n (IsPictureRequest client settings.fileKey)
      (fetchBatch ⟨client, settings, root⟩ format batch urls)
      (fetchBatch ⟨client', settings, root⟩ format batch urls) := by
  refine (echoes_jobs _ urls batch).bind fun jobs => ?_
  have hall := Echoes.all (fun job : Layer × Value => fetch ⟨client, settings, root⟩ format job.1 job.2)
    (fun job : Layer × Value => fetch ⟨client', settings, root⟩ format job.1 job.2)
    (fun job => echoes_fetch h format job.1 job.2) jobs
  exact hall.bind fun files => .ofExcept _

lemma echoes_addresses (h : client.AgreesFrom n client') (format : ExportFormat)
    (index total : Nat) (batch : List Layer) : Echoes n (IsPictureRequest client settings.fileKey)
      (addresses ⟨client, settings, root⟩ format index total batch)
      (addresses ⟨client', settings, root⟩ format index total batch) := by
  refine .recover ?_ fun fault => (Echoes.log ..).bind fun _ => .pure none
  exact (Echoes.imageUrls h fun texts => .inl ⟨texts, _, _, rfl⟩).bind fun urls => .pure (some urls)

lemma echoes_exportBatches (h : client.AgreesFrom n client') (format : ExportFormat)
    (total index : Nat) (exported : Exported) (batches : List (List Layer)) :
    Echoes n (IsPictureRequest client settings.fileKey)
      (exportBatches ⟨client, settings, root⟩ format total index exported batches)
      (exportBatches ⟨client', settings, root⟩ format total index exported batches) := by
  induction batches generalizing index exported with
  | nil => exact .pure exported
  | cons batch rest ih =>
    refine (Echoes.log ..).bind fun _ => (echoes_addresses h format index total batch).bind ?_
    rintro (_ | urls)
    · exact ih _ _
    · exact (echoes_fetchBatch h format batch urls).bind fun found => ih _ _

lemma echoes_exportCandidates (h : client.AgreesFrom n client') (candidates : List Layer) :
    Echoes n (IsPictureRequest client settings.fileKey)
      (exportCandidates ⟨client, settings, root⟩ candidates)
      (exportCandidates ⟨client', settings, root⟩ candidates) := by
  have hformat (format : ExportFormat) (layers : List Layer) :
      Echoes n (IsPictureRequest client settings.fileKey)
        (exportFormat ⟨client, settings, root⟩ format layers)
        (exportFormat ⟨client', settings, root⟩ format layers) :=
    (Echoes.ofExcept _).bind fun parts => echoes_exportBatches h format _ _ _ parts
  refine (Echoes.ofExcept _).bind fun partitions => (Echoes.log ..).bind fun _ => ?_
  refine (Echoes.all _ _ (fun format => hformat format (partitions.of format)) _).bind fun tables =>
    (Echoes.ofExcept _).bind fun records => ?_
  exact .ite ((Echoes.log ..).bind fun _ => .pure _) (.pure _)

/-- An export asks for pictures alone, and does the same with every client that is answered the same
from then on. -/
theorem echoes_exportAll (h : client.AgreesFrom n client') (layers : List Layer) :
    Echoes n (IsPictureRequest client settings.fileKey)
      (exportAll ⟨client, settings, root⟩ layers) (exportAll ⟨client', settings, root⟩ layers) :=
  (Echoes.log ..).bind fun _ => (Echoes.ofLogged _).bind fun candidates =>
    .ite ((Echoes.log ..).bind fun _ => .pure []) (echoes_exportCandidates h candidates)

end Exporter

end Handoff.Asset
