import Handoff.Proofs.Asset.Footprint
import Handoff.Proofs.Data.Table
import Handoff.Proofs.Design.Typed
import Handoff.Proofs.World.Messages

/-!
The story of an export: what was asked for, downloaded and saved, and what came back.

The events are read off at the states that the export passes through. What becomes of a layer
depends on the events about it alone.
-/

namespace Handoff.Asset

open Action Config Design Files Remote

/-- What a step of an export showed. -/
inductive Event where
  /-- The addresses of a batch were asked for. -/
  | asked (format : ExportFormat) (batch : List Layer) (answer : Except Fault Value)
  | downloaded (layer : Layer) (url : Value) (answer : Except Fault ByteArray)
  | saved (layer : Layer) (file : Text) (outcome : Except Fault Bool)

namespace Event

/-- The event is about a layer. -/
def Concerns (layer : Layer) : Event → Prop
  | asked _ batch _ => layer ∈ batch
  | downloaded l _ _ => l = layer
  | saved l _ _ => l = layer

/-- The event is the request for a batch. -/
def IsAsked : Event → Prop
  | asked .. => True
  | _ => False

/-- The event is no failure, or one of a kind that an export reports and recovers from; addresses
come as a record. -/
def Handled : Event → Prop
  | asked _ _ (.ok urls) => ∃ fields, urls = .record fields
  | asked _ _ (.error fault) => fault.ofRequest = true ∨ fault.ofContent = true
  | downloaded _ _ (.ok _) => True
  | downloaded _ _ (.error fault) => fault.ofSystem = true
  | saved _ _ (.ok _) => True
  | saved _ _ (.error fault) => fault.ofSystem = true

instance : DecidablePred Handled := fun e =>
  match e with
  | asked _ _ (.ok (.record fields)) => .isTrue ⟨fields, rfl⟩
  | asked _ _ (.ok .null) | asked _ _ (.ok (.bool _)) | asked _ _ (.ok (.int _))
  | asked _ _ (.ok (.double _)) | asked _ _ (.ok (.text _)) | asked _ _ (.ok (.list _)) =>
    .isFalse fun ⟨_, hf⟩ => nomatch hf
  | asked _ _ (.error fault) =>
    inferInstanceAs (Decidable (fault.ofRequest = true ∨ fault.ofContent = true))
  | downloaded _ _ (.ok _) | saved _ _ (.ok _) => .isTrue trivial
  | downloaded _ _ (.error fault) | saved _ _ (.error fault) =>
    inferInstanceAs (Decidable (fault.ofSystem = true))

end Event

/-- The id of a layer, a text. -/
def idText (layer : Layer) : Text :=
  match layer.id with
  | .text id => id
  | _ => ""

/-- Layers with distinct texts of ids have distinct ids. -/
lemma nodup_ids {layers : List Layer} (h : (layers.map idText).Nodup) :
    (layers.map Layer.id).Nodup := by
  rw [List.Nodup, List.pairwise_map] at h ⊢
  refine h.imp fun hne hsame => hne ?_
  rw [idText, idText, hsame]

/-- The formats that have layers. -/
def Partitions.formats (partitions : Partitions) : List ExportFormat :=
  [.svg, .png].filter fun format => !(partitions.of format).isEmpty

namespace Exporter

variable (exporter : Exporter)

/-- The scale that is asked for. -/
def scale : ExportFormat → Value
  | .png => exporter.settings.rasterScale
  | .svg => .null

/-- Asks for the addresses of a batch. -/
def ask (format : ExportFormat) (batch : List Layer) : Action Value :=
  exporter.client.imageUrls exporter.settings.fileKey (batch.map Layer.id) (.text format.name)
    (exporter.scale format)

/-! ### Events -/

/-- The events of one picture: its download, and its save when there is something to save. -/
def fetchEvents (format : ExportFormat) (layer : Layer) (url : Value) (s : World) : List Event :=
  let (answer, t) := (exporter.client.download url).exec s
  .downloaded layer url answer ::
    match answer, fileName layer format with
    | .ok content, .ok file =>
      [.saved layer file
        ((writeFile exporter.root (exporter.settings.assetsDir.child file) content).exec t).1]
    | _, _ => []

/-- The events of pictures one after the other. -/
def jobEvents (format : ExportFormat) : List (Layer × Value) → World → List Event
  | [], _ => []
  | job :: rest, s => exporter.fetchEvents format job.1 job.2 s ++
      jobEvents format rest ((exporter.fetch format job.1 job.2).exec s).2

/-- The events of a batch. -/
def batchEvents (format : ExportFormat) (batch : List Layer) (s : World) : List Event :=
  let (answer, t) := (exporter.ask format batch).exec s
  .asked format batch answer ::
    match answer.bind fun urls => jobsAmong urls batch with
    | .ok jobs => exporter.jobEvents format jobs t
    | .error _ => []

/-- The state after a batch. -/
def afterBatch (format : ExportFormat) (batch : List Layer) (s : World) : World :=
  match (exporter.ask format batch).exec s with
  | (.ok urls, t) => ((exporter.fetchBatch format batch urls).exec t).2
  | (.error _, t) => t

/-- The events of batches in order. -/
def batchesEvents (format : ExportFormat) : List (List Layer) → World → List Event
  | [], _ => []
  | batch :: rest, s => exporter.batchEvents format batch s ++
      batchesEvents format rest (exporter.afterBatch format batch s)

/-- The events of the layers of one format. -/
def formatEvents (format : ExportFormat) (layers : List Layer) (s : World) : List Event :=
  match batches layers exporter.settings.batchSize with
  | .ok parts => exporter.batchesEvents format parts s
  | .error _ => []

/-- The events of several formats, one after the other. -/
def formatsEvents (partitions : Partitions) : List ExportFormat → World → List Event
  | [], _ => []
  | format :: rest, s => exporter.formatEvents format (partitions.of format) s ++
      formatsEvents partitions rest
        ((exporter.exportFormat format (partitions.of format)).exec s).2

/-- The events of an export. -/
def story (layers : List Layer) (s : World) : List Event :=
  match (candidatesAmong layers).bind partition with
  | .ok partitions => exporter.formatsEvents partitions partitions.formats s
  | .error _ => []

/-! ### The events do not depend on messages -/

lemma blind_fetch (format : ExportFormat) (layer : Layer) (url : Value) :
    Blind (exporter.fetch format layer url) := by
  refine (Blind.of_steady (.ofExcept _)).bind fun file => Blind.bind ?_ fun ended => ?_
  · refine Blind.recover ?_ fun fault =>
      .of_steady ((Steady.log ..).bind fun _ => .pure false)
    refine Blind.bind ?_ fun _ => .of_steady (.pure true)
    exact (Blind.of_steady (exporter.client.steady_download url)).bind fun content =>
      (Blind.writeFile ..).bind fun _ => .of_steady (.pure _)
  · exact .of_steady (.ite ((Steady.log ..).bind fun _ => .pure _) (.pure _))

lemma steady_ask (format : ExportFormat) (batch : List Layer) : Steady (exporter.ask format batch) :=
  exporter.client.steady_imageUrls ..

lemma blind_fetchBatch (format : ExportFormat) (batch : List Layer) (urls : Value) :
    Blind (exporter.fetchBatch format batch urls) := by
  refine (Blind.of_steady (steady_jobs urls batch)).bind fun jobs => ?_
  have hall := Blind.all (fun job : Layer × Value => exporter.fetch format job.1 job.2)
    (fun job => exporter.blind_fetch format job.1 job.2) jobs
  exact hall.bind fun _ => .of_steady (.ofExcept _)

variable {s t : World}

lemma fetchEvents_alike (h : Alike s t) (format : ExportFormat) (layer : Layer) (url : Value) :
    exporter.fetchEvents format layer url t = exporter.fetchEvents format layer url s := by
  obtain ⟨h1, h2⟩ := (Blind.of_steady (exporter.client.steady_download url)).alike h
  simp only [fetchEvents, h1]
  rcases ((exporter.client.download url).exec s).1 with fault | content
  · rfl
  · rcases fileName layer format with fault | file
    · rfl
    · simp only [((Blind.writeFile exporter.root (exporter.settings.assetsDir.child file)
        content).alike h2).1]

lemma jobEvents_alike (h : Alike s t) (format : ExportFormat) (jobs : List (Layer × Value)) :
    exporter.jobEvents format jobs t = exporter.jobEvents format jobs s := by
  induction jobs generalizing s t with
  | nil => rfl
  | cons job rest ih =>
    rw [jobEvents, jobEvents, exporter.fetchEvents_alike h,
      ih ((exporter.blind_fetch format job.1 job.2).alike h).2]

lemma batchEvents_alike (h : Alike s t) (format : ExportFormat) (batch : List Layer) :
    exporter.batchEvents format batch t = exporter.batchEvents format batch s := by
  obtain ⟨h1, h2⟩ := (Blind.of_steady (exporter.steady_ask format batch)).alike h
  simp only [batchEvents, h1]
  rcases (((exporter.ask format batch).exec s).1).bind fun urls => jobsAmong urls batch with _ | jobs
  · rfl
  · simp only [exporter.jobEvents_alike h2]

lemma alike_afterBatch (h : Alike s t) (format : ExportFormat) (batch : List Layer) :
    Alike (exporter.afterBatch format batch s) (exporter.afterBatch format batch t) := by
  obtain ⟨h1, h2⟩ := (Blind.of_steady (exporter.steady_ask format batch)).alike h
  unfold afterBatch
  rcases hs : (exporter.ask format batch).exec s with ⟨fault | urls, u⟩ <;>
    rcases ht : (exporter.ask format batch).exec t with ⟨_ | _, v⟩ <;>
    rw [hs, ht] at h1 h2 <;> cases h1
  · exact h2
  · exact ((exporter.blind_fetchBatch format batch urls).alike h2).2

lemma batchesEvents_alike (h : Alike s t) (format : ExportFormat) (batches : List (List Layer)) :
    exporter.batchesEvents format batches t = exporter.batchesEvents format batches s := by
  induction batches generalizing s t with
  | nil => rfl
  | cons batch rest ih =>
    rw [batchesEvents, batchesEvents, exporter.batchEvents_alike h,
      ih (exporter.alike_afterBatch h format batch)]

lemma blind_exportBatches (format : ExportFormat) (total index : Nat) (exported : Exported)
    (batches : List (List Layer)) :
    Blind (exporter.exportBatches format total index exported batches) := by
  induction batches generalizing index exported with
  | nil => exact .of_steady (.pure exported)
  | cons batch rest ih =>
    refine (Blind.of_steady (.log ..)).bind fun _ =>
      (Blind.of_steady (exporter.steady_addresses ..)).bind fun urls => ?_
    rcases urls with _ | urls
    · exact ih _ _
    · exact (exporter.blind_fetchBatch format batch urls).bind fun found => ih _ _

lemma blind_exportFormat (format : ExportFormat) (layers : List Layer) :
    Blind (exporter.exportFormat format layers) :=
  (Blind.of_steady (.ofExcept _)).bind fun _ => exporter.blind_exportBatches ..

lemma formatEvents_alike (h : Alike s t) (format : ExportFormat) (layers : List Layer) :
    exporter.formatEvents format layers t = exporter.formatEvents format layers s := by
  unfold formatEvents
  split
  · exact exporter.batchesEvents_alike h ..
  · rfl

lemma formatsEvents_alike (h : Alike s t) (partitions : Partitions) (formats : List ExportFormat) :
    exporter.formatsEvents partitions formats t = exporter.formatsEvents partitions formats s := by
  induction formats generalizing s t with
  | nil => rfl
  | cons format rest ih =>
    rw [formatsEvents, formatsEvents, exporter.formatEvents_alike h,
      ih ((exporter.blind_exportFormat ..).alike h).2]

/-! ### What the events are about -/

lemma of_mem_fetchEvents {format : ExportFormat} {layer : Layer} {url : Value} {e : Event}
    (h : e ∈ exporter.fetchEvents format layer url s) :
    ¬ e.IsAsked ∧ ∀ l, e.Concerns l → l = layer := by
  rcases List.mem_cons.1 h with rfl | h
  · exact ⟨id, fun l hl => Eq.symm hl⟩
  · split at h
    · cases List.mem_singleton.1 h
      exact ⟨id, fun l hl => Eq.symm hl⟩
    · cases h

lemma of_mem_jobEvents {format : ExportFormat} {jobs : List (Layer × Value)} {e : Event}
    (h : e ∈ exporter.jobEvents format jobs s) :
    ¬ e.IsAsked ∧ ∀ l, e.Concerns l → l ∈ jobs.map Prod.fst := by
  induction jobs generalizing s with
  | nil => cases h
  | cons job rest ih =>
    rcases List.mem_append.1 h with h | h
    · obtain ⟨hasked, hlayer⟩ := exporter.of_mem_fetchEvents h
      refine ⟨hasked, fun l hl => ?_⟩
      rw [hlayer l hl]
      exact List.mem_cons_self
    · exact ⟨(ih h).1, fun l hl => List.mem_cons_of_mem _ ((ih h).2 l hl)⟩

/-- An event of a batch is the request for it, or an event of its pictures. -/
lemma of_mem_batchEvents {format : ExportFormat} {batch : List Layer} {e : Event}
    (h : e ∈ exporter.batchEvents format batch s) :
    (e.IsAsked → e = .asked format batch ((exporter.ask format batch).exec s).1) ∧
      ∀ l, e.Concerns l → l ∈ batch := by
  rcases List.mem_cons.1 h with rfl | h
  · exact ⟨fun _ => rfl, fun l hl => hl⟩
  · split at h
    · rename_i jobs hjobs
      obtain ⟨urls, -, hjobs⟩ := bind_eq_ok.1 hjobs
      obtain ⟨hasked, hlayer⟩ := exporter.of_mem_jobEvents h
      exact ⟨fun ha => absurd ha hasked,
        fun l hl => (jobsAmong_sublist hjobs).subset (hlayer l hl)⟩
    · cases h

lemma of_mem_batchesEvents {format : ExportFormat} {batches : List (List Layer)} {e : Event}
    (h : e ∈ exporter.batchesEvents format batches s) :
    (e.IsAsked → ∃ batch ∈ batches, ∃ answer, e = .asked format batch answer) ∧
      ∀ l, e.Concerns l → l ∈ batches.flatten := by
  induction batches generalizing s with
  | nil => cases h
  | cons batch rest ih =>
    rw [List.flatten_cons]
    rcases List.mem_append.1 h with h | h
    · obtain ⟨hasked, hlayer⟩ := exporter.of_mem_batchEvents h
      exact ⟨fun ha => ⟨batch, List.mem_cons_self, _, hasked ha⟩,
        fun l hl => List.mem_append_left _ (hlayer l hl)⟩
    · refine ⟨fun ha => ?_, fun l hl => List.mem_append_right _ ((ih h).2 l hl)⟩
      obtain ⟨b, hb, he⟩ := (ih h).1 ha
      exact ⟨b, List.mem_cons_of_mem _ hb, he⟩

lemma of_mem_formatEvents {format : ExportFormat} {layers : List Layer} {e : Event}
    (h : e ∈ exporter.formatEvents format layers s) :
    (e.IsAsked → ∃ batch answer, e = .asked format batch answer) ∧
      ∀ l, e.Concerns l → l ∈ layers := by
  unfold formatEvents at h
  split at h
  · rename_i _ hparts
    obtain ⟨hasked, hlayer⟩ := exporter.of_mem_batchesEvents h
    refine ⟨fun ha => ?_, fun l hl => (batches_flatten_sublist hparts).subset (hlayer l hl)⟩
    obtain ⟨batch, -, answer, he⟩ := hasked ha
    exact ⟨batch, answer, he⟩
  · cases h

lemma of_mem_formatsEvents {partitions : Partitions} {formats : List ExportFormat} {e : Event}
    (h : e ∈ exporter.formatsEvents partitions formats s) :
    ∃ format ∈ formats, (e.IsAsked → ∃ batch answer, e = .asked format batch answer) ∧
      ∀ l, e.Concerns l → l ∈ partitions.of format := by
  induction formats generalizing s with
  | nil => cases h
  | cons format rest ih =>
    rcases List.mem_append.1 h with h | h
    · exact ⟨format, List.mem_cons_self, exporter.of_mem_formatEvents h⟩
    · obtain ⟨other, hother, h⟩ := ih h
      exact ⟨other, List.mem_cons_of_mem _ hother, h⟩

end Exporter

end Handoff.Asset
