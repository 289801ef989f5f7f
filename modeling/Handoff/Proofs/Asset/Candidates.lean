import Handoff.Asset.Candidates
import Handoff.Proofs.World.Steady

/-!
What the candidates, their formats and their batches are.

The candidates are a sublist of the layers, the layers of a format a sublist of the candidates, and
the batches the layers of a format cut into pieces.
-/

namespace Handoff.Asset

open Design

/-! ### Candidates -/

/-- The candidates among layers, without the messages about them. -/
def candidatesAmong : List Layer → Except Fault (List Layer)
  | [] => .ok []
  | layer :: rest => do
    if ← layer.isAssetCandidate then return layer :: (← candidatesAmong rest)
    else candidatesAmong rest

lemma gives_candidates (layers : List Layer) :
    (candidates layers).Gives (candidatesAmong layers) := by
  induction layers with
  | nil => exact Logged.gives_pure []
  | cons layer rest ih =>
    refine (Logged.gives_ofExcept _).bind fun isCandidate => Logged.Gives.ite ?_ ih
    exact .after_log _ _ (ih.bind fun others => Logged.gives_pure (layer :: others))

lemma candidatesAmong_cons_eq_ok {layer : Layer} {rest cs : List Layer}
    (h : candidatesAmong (layer :: rest) = .ok cs) :
    (layer.isAssetCandidate = .ok true ∧ ∃ others, candidatesAmong rest = .ok others ∧
      cs = layer :: others) ∨ (layer.isAssetCandidate = .ok false ∧ candidatesAmong rest = .ok cs) := by
  obtain ⟨isCandidate, hc, h⟩ := bind_eq_ok.1 h
  cases isCandidate with
  | true =>
    obtain ⟨others, ho, h⟩ := bind_eq_ok.1 h
    cases h
    exact Or.inl ⟨hc, others, ho, rfl⟩
  | false => exact Or.inr ⟨hc, h⟩

lemma candidatesAmong_sublist {layers cs : List Layer} (h : candidatesAmong layers = .ok cs) :
    cs.Sublist layers := by
  induction layers generalizing cs with
  | nil =>
    cases h
    exact .slnil
  | cons layer rest ih =>
    rcases candidatesAmong_cons_eq_ok h with ⟨-, others, ho, rfl⟩ | ⟨-, hr⟩
    · exact (ih ho).cons_cons layer
    · exact (ih hr).cons layer

lemma isAssetCandidate_of_mem {layers cs : List Layer} (h : candidatesAmong layers = .ok cs) :
    ∀ layer ∈ cs, layer.isAssetCandidate = .ok true := by
  induction layers generalizing cs with
  | nil =>
    cases h
    simp
  | cons layer rest ih =>
    rcases candidatesAmong_cons_eq_ok h with ⟨hc, others, ho, rfl⟩ | ⟨-, hr⟩
    · exact List.forall_mem_cons.2 ⟨hc, ih ho⟩
    · exact ih hr

/-! ### Formats -/

lemma partition_cons_eq_ok {layer : Layer} {rest : List Layer} {parts : Partitions}
    (h : partition (layer :: rest) = .ok parts) :
    ∃ others, partition rest = .ok others ∧
      ((layer.exportFormat? = .ok (some .svg) ∧ parts = { others with svg := layer :: others.svg }) ∨
        (layer.exportFormat? = .ok (some .png) ∧
          parts = { others with png := layer :: others.png })) := by
  obtain ⟨format, hf, h⟩ := bind_eq_ok.1 h
  rcases format with _ | _ | _
  · cases h
  · obtain ⟨others, ho, h⟩ := bind_eq_ok.1 h
    cases h
    exact ⟨others, ho, Or.inl ⟨hf, rfl⟩⟩
  · obtain ⟨others, ho, h⟩ := bind_eq_ok.1 h
    cases h
    exact ⟨others, ho, Or.inr ⟨hf, rfl⟩⟩

lemma partition_sublist {layers : List Layer} {parts : Partitions} (h : partition layers = .ok parts)
    (format : ExportFormat) : (parts.of format).Sublist layers := by
  induction layers generalizing parts with
  | nil =>
    cases h
    cases format <;> exact .slnil
  | cons layer rest ih =>
    obtain ⟨others, ho, ⟨-, rfl⟩ | ⟨-, rfl⟩⟩ := partition_cons_eq_ok h
    · cases format
      · exact (ih ho).cons_cons layer
      · exact (ih ho).cons layer
    · cases format
      · exact (ih ho).cons layer
      · exact (ih ho).cons_cons layer

lemma exportFormat_of_mem {layers : List Layer} {parts : Partitions}
    (h : partition layers = .ok parts) {format : ExportFormat} :
    ∀ layer ∈ parts.of format, layer.exportFormat? = .ok (some format) := by
  induction layers generalizing parts with
  | nil =>
    cases h
    cases format <;> simp [Partitions.of]
  | cons layer rest ih =>
    obtain ⟨others, ho, ⟨hf, rfl⟩ | ⟨hf, rfl⟩⟩ := partition_cons_eq_ok h
    · cases format
      · exact List.forall_mem_cons.2 ⟨hf, ih ho⟩
      · exact fun l hl => ih ho l hl
    · cases format
      · exact fun l hl => ih ho l hl
      · exact List.forall_mem_cons.2 ⟨hf, ih ho⟩

/-! ### Batches -/

variable {α : Type}

lemma pieces_flatten_sublist (size : Nat) (items : List α) (bound : Nat) :
    (pieces size items bound).flatten.Sublist items := by
  induction bound generalizing items with
  | zero => exact List.nil_sublist items
  | succ bound ih =>
    rw [pieces]
    split
    · exact List.nil_sublist items
    · rw [List.flatten_cons]
      have h := (List.Sublist.refl (items.take size)).append (ih (items.drop size))
      rwa [List.take_append_drop] at h

lemma batches_flatten_sublist {items : List α} {size : Int} {parts : List (List α)}
    (h : batches items size = .ok parts) : parts.flatten.Sublist items := by
  unfold batches at h
  split at h
  · cases h
  · split at h
    · cases h
      exact List.nil_sublist items
    · cases h
      exact pieces_flatten_sublist _ _ _

/-- The parts are a list in order, none of them empty, all of one size but perhaps the last. -/
structure AreBatches (size : Nat) (items : List α) (parts : List (List α)) : Prop where
  flatten : parts.flatten = items
  ne_nil : ∀ part ∈ parts, part ≠ []
  length_le : ∀ part ∈ parts, part.length ≤ size
  full : ∀ part ∈ parts.dropLast, part.length = size

theorem areBatches_pieces {size : Nat} (hsize : 0 < size) {items : List α} {bound : Nat}
    (hbound : items.length ≤ bound) : AreBatches size items (pieces size items bound) := by
  induction bound generalizing items with
  | zero =>
    have hnil : items = [] := List.eq_nil_of_length_eq_zero (by omega)
    subst hnil
    exact ⟨rfl, by simp [pieces], by simp [pieces], by simp [pieces]⟩
  | succ bound ih =>
    rw [pieces]
    split
    · rename_i hempty
      rw [List.isEmpty_iff.1 hempty]
      exact ⟨rfl, by simp, by simp, by simp⟩
    · rename_i hne
      have hlen : 0 < items.length := List.length_pos_iff.2 (by simpa using hne)
      have hrest : AreBatches size (items.drop size) (pieces size (items.drop size) bound) :=
        ih (by rw [List.length_drop]; omega)
      refine ⟨?_, ?_, ?_, ?_⟩
      · rw [List.flatten_cons, hrest.flatten, List.take_append_drop]
      · refine List.forall_mem_cons.2 ⟨?_, hrest.ne_nil⟩
        rw [← List.length_pos_iff, List.length_take]
        omega
      · refine List.forall_mem_cons.2 ⟨?_, hrest.length_le⟩
        rw [List.length_take]
        omega
      · -- A piece that is not the last one leaves something over, so it is full.
        intro part hpart
        rcases hp : pieces size (items.drop size) bound with _ | ⟨next, others⟩
        · simp [hp] at hpart
        · rw [hp, List.dropLast_cons_of_ne_nil (by simp), ← hp, List.mem_cons] at hpart
          rcases hpart with rfl | hpart
          · have hdrop : items.drop size ≠ [] := by
              intro hnil
              have hnext := hrest.ne_nil next (by simp [hp])
              have hflat := hrest.flatten
              rw [hp, hnil, List.flatten_cons, List.append_eq_nil_iff] at hflat
              exact hnext hflat.1
            have := List.length_pos_iff.2 hdrop
            rw [List.length_drop] at this
            rw [List.length_take]
            omega
          · exact hrest.full part hpart

lemma batches_of_pos (items : List α) {size : Int} (h : 1 ≤ size) :
    ∃ parts, batches items size = .ok parts ∧ AreBatches size.toNat items parts := by
  refine ⟨pieces size.toNat items items.length, ?_,
    areBatches_pieces (by omega) (Nat.le_refl _)⟩
  rw [batches, if_neg (by omega), if_neg (by omega)]

end Handoff.Asset
