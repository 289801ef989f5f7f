import Handoff.Proofs.Asset.Story
import Mathlib.Data.List.Nodup

/-!
Events about different layers, and how often a picture is downloaded.

An export handles a layer in one batch alone. So a whole export has every property that the events of
each batch have, and that events about different layers have together when each have it. For one, no
picture is downloaded twice.
-/

namespace Handoff.Asset

open Action Config Design Remote

/-- No event of the second list is about a layer that one of the first is about. -/
def Unrelated (before after : List Event) : Prop :=
  ∀ e ∈ before, ∀ e' ∈ after, ∀ layer, e.Concerns layer → ¬ e'.Concerns layer

/-- A property that events about different layers have together when each have it. -/
structure Separable (P : List Event → Prop) : Prop where
  nil : P []
  append : ∀ {before after}, P before → P after → Unrelated before after → P (before ++ after)

/-- Each layer is in the list of one format, and there once. -/
structure Parted (partitions : Partitions) (formats : List ExportFormat) : Prop where
  nodup : ∀ format ∈ formats, (partitions.of format).Nodup
  apart : formats.Pairwise fun f g => ∀ l ∈ partitions.of f, l ∉ partitions.of g

lemma parted_of_partition {layers : List Layer} {partitions : Partitions}
    (h : partition layers = .ok partitions) (hn : layers.Nodup) {formats : List ExportFormat}
    (hformats : formats.Nodup) : Parted partitions formats where
  nodup format _ := hn.sublist (partition_sublist h format)
  apart := hformats.imp fun hne l hl hl' => hne <| Option.some.inj <| Except.ok.inj <|
    (exportFormat_of_mem h l hl).symm.trans (exportFormat_of_mem h l hl')

namespace Exporter

variable (exporter : Exporter) {s : World} {format : ExportFormat} {P : List Event → Prop}

section

variable (hP : Separable P)
  (hbatch : ∀ format batch s, batch.Nodup → P (exporter.batchEvents format batch s))

include hP hbatch

lemma separable_batchesEvents {batches : List (List Layer)} (hn : batches.flatten.Nodup) :
    P (exporter.batchesEvents format batches s) := by
  induction batches generalizing s with
  | nil => exact hP.nil
  | cons batch rest ih =>
    rw [List.flatten_cons, List.nodup_append] at hn
    refine hP.append (hbatch format batch s hn.1) (ih hn.2.1) ?_
    intro e he e' he' layer hl hl'
    exact hn.2.2 layer ((exporter.of_mem_batchEvents he).2 _ hl) layer
      ((exporter.of_mem_batchesEvents he').2 _ hl') rfl

lemma separable_formatEvents {layers : List Layer} (hn : layers.Nodup) :
    P (exporter.formatEvents format layers s) := by
  unfold formatEvents
  split
  · rename_i parts hparts
    exact exporter.separable_batchesEvents hP hbatch (hn.sublist (batches_flatten_sublist hparts))
  · exact hP.nil

lemma separable_formatsEvents {partitions : Partitions} {formats : List ExportFormat}
    (h : Parted partitions formats) : P (exporter.formatsEvents partitions formats s) := by
  induction formats generalizing s with
  | nil => exact hP.nil
  | cons format rest ih =>
    obtain ⟨hformat, hrest⟩ := List.forall_mem_cons.1 h.nodup
    obtain ⟨hfirst, hothers⟩ := List.pairwise_cons.1 h.apart
    refine hP.append (exporter.separable_formatEvents hP hbatch hformat) (ih ⟨hrest, hothers⟩) ?_
    intro e he e' he' layer hl hl'
    obtain ⟨g, hg, -, hlayer⟩ := exporter.of_mem_formatsEvents he'
    exact hfirst g hg layer ((exporter.of_mem_formatEvents he).2 _ hl) (hlayer _ hl')

/-- What holds of the events of batches holds of those of an export. -/
theorem separable_story {layers : List Layer} (hn : layers.Nodup) : P (exporter.story layers s) := by
  unfold story
  split
  · rename_i partitions hpartitions
    obtain ⟨cs, hcs, hpartition⟩ := bind_eq_ok.1 hpartitions
    exact exporter.separable_formatsEvents hP hbatch (parted_of_partition hpartition
      (hn.sublist (candidatesAmong_sublist hcs)) (List.Nodup.filter _ (by decide)))
  · exact hP.nil

end

end Exporter

/-! ### Downloads -/

/-- No picture is downloaded twice. -/
def DownloadsOnce (events : List Event) : Prop :=
  ∀ layer url answer url' answer', .downloaded layer url answer ∈ events →
    .downloaded layer url' answer' ∈ events → url' = url ∧ answer' = answer

lemma separable_downloadsOnce : Separable DownloadsOnce where
  nil := fun _ _ _ _ _ h => nomatch h
  append {before after} h h' hu := by
    intro layer url answer url' answer' hd hd'
    rcases List.mem_append.1 hd with hd | hd <;> rcases List.mem_append.1 hd' with hd' | hd'
    · exact h layer url answer url' answer' hd hd'
    · exact absurd rfl (hu _ hd _ hd' layer rfl)
    · exact absurd rfl (hu _ hd' _ hd layer rfl)
    · exact h' layer url answer url' answer' hd hd'

namespace Exporter

variable (exporter : Exporter) {s : World} {format : ExportFormat}

lemma downloadsOnce_fetchEvents (layer : Layer) (url : Value) :
    DownloadsOnce (exporter.fetchEvents format layer url s) := by
  have hevent {l : Layer} {u : Value} {answer : Except Fault ByteArray}
      (h : .downloaded l u answer ∈ exporter.fetchEvents format layer url s) :
      u = url ∧ answer = ((exporter.client.download url).exec s).1 := by
    rcases List.mem_cons.1 h with h | h
    · obtain ⟨-, hurl, hanswer⟩ := Event.downloaded.inj h
      exact ⟨hurl, hanswer⟩
    · split at h
      · exact absurd (List.mem_singleton.1 h) (by simp)
      · cases h
  intro l u answer u' answer' hd hd'
  obtain ⟨rfl, rfl⟩ := hevent hd
  exact hevent hd'

lemma downloadsOnce_jobEvents {jobs : List (Layer × Value)} (hn : (jobs.map Prod.fst).Nodup) :
    DownloadsOnce (exporter.jobEvents format jobs s) := by
  induction jobs generalizing s with
  | nil => exact separable_downloadsOnce.nil
  | cons job rest ih =>
    rw [List.map_cons, List.nodup_cons] at hn
    refine separable_downloadsOnce.append (exporter.downloadsOnce_fetchEvents _ _) (ih hn.2) ?_
    intro e he e' he' layer hl hl'
    refine hn.1 ?_
    rw [← (exporter.of_mem_fetchEvents he).2 layer hl]
    exact (exporter.of_mem_jobEvents he').2 layer hl'

lemma downloadsOnce_batchEvents {batch : List Layer} (hn : batch.Nodup) :
    DownloadsOnce (exporter.batchEvents format batch s) := by
  intro layer url answer url' answer' hd hd'
  have hd := (List.mem_cons.1 hd).resolve_left (by simp)
  have hd' := (List.mem_cons.1 hd').resolve_left (by simp)
  split at hd
  · rename_i jobs hjobs
    rw [hjobs] at hd'
    obtain ⟨urls, -, hjobs⟩ := bind_eq_ok.1 hjobs
    exact exporter.downloadsOnce_jobEvents (hn.sublist (jobsAmong_sublist hjobs)) layer url answer
      url' answer' hd hd'
  · cases hd

/-- An export downloads no picture twice. -/
theorem downloadsOnce_story {layers : List Layer} (hn : layers.Nodup) :
    DownloadsOnce (exporter.story layers s) :=
  exporter.separable_story separable_downloadsOnce
    (fun _ _ _ hbatch => exporter.downloadsOnce_batchEvents hbatch) hn

end Exporter

end Handoff.Asset
