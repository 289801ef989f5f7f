import Handoff.Data.Table
import Mathlib.Data.List.Induction
import Mathlib.Data.List.Nodup
import Mathlib.Data.List.Perm.Subperm
import Mathlib.Tactic.Common

/-!
Looking things up in tables, and the distinct elements of a list.
-/

namespace Handoff.Table

variable {κ α : Type}

/-- The keys of a table are distinct. -/
def Keyed (table : Table κ α) : Prop := (table.map Prod.fst).Nodup

instance [DecidableEq κ] (table : Table κ α) : Decidable (Keyed table) :=
  inferInstanceAs (Decidable (table.map Prod.fst).Nodup)

@[simp] lemma keyed_nil : Keyed ([] : Table κ α) := List.nodup_nil

variable [BEq κ] [LawfulBEq κ]

lemma lookup_put (table : Table κ α) (key k : κ) (value : α) :
    (table.put key value).lookup k = if k == key then some value else table.lookup k := by
  induction table with
  | nil => cases hk : k == key <;> simp [put, List.lookup_cons, hk]
  | cons entry rest ih =>
    obtain ⟨k', v⟩ := entry
    rw [put]
    by_cases hk : k' == key
    · rw [if_pos hk, List.lookup_cons, List.lookup_cons, LawfulBEq.eq_of_beq hk]
      cases k == key <;> rfl
    · rw [if_neg hk, List.lookup_cons, List.lookup_cons, ih]
      by_cases hkk : k == k'
      · have hne : (k == key) = false := by
          rw [LawfulBEq.eq_of_beq hkk]
          exact Bool.eq_false_iff.2 hk
        simp [hkk, hne]
      · simp [hkk]

lemma mem_keys_put {table : Table κ α} {key k : κ} {value : α} :
    k ∈ (table.put key value).map Prod.fst ↔ k = key ∨ k ∈ table.map Prod.fst := by
  induction table with
  | nil => simp [put]
  | cons entry rest ih =>
    obtain ⟨k', v⟩ := entry
    rw [put]
    by_cases hk : k' == key
    · simp [LawfulBEq.eq_of_beq hk]
    · rw [if_neg hk, List.map_cons, List.map_cons, List.mem_cons, List.mem_cons, ih]
      tauto

lemma Keyed.put {table : Table κ α} (h : Keyed table) (key : κ) (value : α) :
    Keyed (table.put key value) := by
  induction table with
  | nil => simp [Table.put, Keyed]
  | cons entry rest ih =>
    obtain ⟨k, v⟩ := entry
    unfold Keyed at h ih ⊢
    rw [List.map_cons, List.nodup_cons] at h
    rw [Table.put]
    by_cases hk : k == key
    · simpa [hk] using h
    · rw [if_neg hk, List.map_cons, List.nodup_cons, mem_keys_put]
      refine ⟨?_, ih h.2⟩
      rintro (rfl | hmem)
      · exact hk (beq_self_eq_true k)
      · exact h.1 hmem

/-- The entries of a second table replace those of a first one. -/
def merge (table other : Table κ α) : Table κ α :=
  other.foldl (fun table entry => table.put entry.1 entry.2) table

lemma Keyed.merge {table : Table κ α} (h : Keyed table) (other : Table κ α) :
    Keyed (table.merge other) := by
  induction other generalizing table with
  | nil => exact h
  | cons entry rest ih => exact ih (h.put _ _)

lemma lookup_merge (table : Table κ α) {other : Table κ α} (h : Keyed other) (k : κ) :
    (table.merge other).lookup k = (other.lookup k).or (table.lookup k) := by
  induction other generalizing table with
  | nil => rfl
  | cons entry rest ih =>
    obtain ⟨key, value⟩ := entry
    rw [Keyed, List.map_cons, List.nodup_cons] at h
    have hstep : table.merge ((key, value) :: rest) = (table.put key value).merge rest := rfl
    rw [hstep, ih _ h.2, lookup_put, List.lookup_cons]
    by_cases hk : k == key
    · have hnone : rest.lookup k = none := by
        rw [LawfulBEq.eq_of_beq hk]
        refine List.lookup_eq_none_iff.2 fun p hp => ?_
        have hmem := List.mem_map_of_mem (f := Prod.fst) hp
        rw [bne_iff_ne]
        exact fun he => h.1 (he ▸ hmem)
      simp [hk, hnone]
    · simp [hk]

end Handoff.Table

namespace Handoff

variable {α : Type} [BEq α] [LawfulBEq α]

lemma distinct_concat (items : List α) (item : α) : distinct (items ++ [item]) =
    if (distinct items).contains item then distinct items else distinct items ++ [item] := by
  simp [distinct, List.foldl_append]

lemma mem_distinct {items : List α} {a : α} : a ∈ distinct items ↔ a ∈ items := by
  induction items using List.reverseRecOn with
  | nil => rfl
  | append_singleton items item ih =>
    rw [distinct_concat, List.mem_append, List.mem_singleton, ← ih]
    split
    · rename_i hseen
      have hmem : item ∈ distinct items := by simpa using hseen
      exact ⟨Or.inl, fun h => h.elim id fun he => he ▸ hmem⟩
    · rw [List.mem_append, List.mem_singleton]

lemma nodup_distinct (items : List α) : (distinct items).Nodup := by
  induction items using List.reverseRecOn with
  | nil => exact List.nodup_nil
  | append_singleton items item ih =>
    rw [distinct_concat]
    split
    · exact ih
    · rename_i hnew
      have hmem : item ∉ distinct items := by simpa using hnew
      refine List.nodup_append.2 ⟨ih, by simp, ?_⟩
      rintro a ha _ hb rfl
      rw [List.mem_singleton.1 hb] at ha
      exact hmem ha

/-- A list of distinct elements has no others. -/
lemma distinct_perm {items : List α} (h : items.Nodup) : (distinct items).Perm items :=
  (List.perm_ext_iff_of_nodup (nodup_distinct items) h).2 fun _ => mem_distinct

/-- No element is lost from a list with distinct elements alone. -/
lemma length_distinct_eq_iff {items : List α} : (distinct items).length = items.length ↔ items.Nodup := by
  constructor
  · intro h
    have hsub : List.Subperm (distinct items) items :=
      (nodup_distinct items).subperm fun a ha => mem_distinct.1 ha
    exact (hsub.perm_of_length_le (Nat.le_of_eq h.symm)).nodup_iff.1 (nodup_distinct items)
  · exact fun h => (distinct_perm h).length_eq

end Handoff

namespace Handoff.Table

/-! ### Tables of entries -/

variable {κ α : Type}

/-- The value that was entered last under a key. -/
def lastValue [BEq κ] (entries : List (κ × α)) (key : κ) : Option α := entries.reverse.lookup key

lemma ofEntries_concat [BEq κ] (entries : List (κ × α)) (entry : κ × α) :
    ofEntries (entries ++ [entry]) = (ofEntries entries).put entry.1 entry.2 := by
  rw [ofEntries, List.foldl_append]
  rfl

/-- What is entered later replaces what was entered before. -/
lemma lastValue_append [BEq κ] (entries more : List (κ × α)) (key : κ) :
    lastValue (entries ++ more) key = (lastValue more key).or (lastValue entries key) := by
  rw [lastValue, List.reverse_append, List.lookup_append]
  rfl

variable [BEq κ] [LawfulBEq κ]

lemma keys_put (table : Table κ α) (key : κ) (value : α) : (table.put key value).map Prod.fst =
    if (table.map Prod.fst).contains key then table.map Prod.fst else table.map Prod.fst ++ [key] := by
  induction table with
  | nil => rfl
  | cons entry rest ih =>
    obtain ⟨k, v⟩ := entry
    rw [put]
    by_cases hk : k == key
    · simp [LawfulBEq.eq_of_beq hk]
    · have hne : (key == k) = false := by
        rw [Bool.eq_false_iff]
        exact fun he => hk (by rw [LawfulBEq.eq_of_beq he]; exact beq_self_eq_true k)
      rw [if_neg hk, List.map_cons, ih, List.map_cons, List.contains_cons, hne, Bool.false_or]
      split
      · rfl
      · rfl

lemma put_of_notMem {table : Table κ α} {key : κ} {value : α} (h : key ∉ table.map Prod.fst) :
    table.put key value = table ++ [(key, value)] := by
  induction table with
  | nil => rfl
  | cons entry rest ih =>
    rw [List.map_cons, List.mem_cons, not_or] at h
    have hne : (entry.1 == key) = false := by
      rw [beq_eq_false_iff_ne]
      exact fun he => h.1 he.symm
    rw [put, hne, ih h.2]
    rfl

/-- The keys of a table of entries are the distinct ones, in the order of first entry. -/
theorem keys_ofEntries (entries : List (κ × α)) :
    (ofEntries entries).map Prod.fst = distinct (entries.map Prod.fst) := by
  induction entries using List.reverseRecOn with
  | nil => rfl
  | append_singleton entries entry ih =>
    rw [ofEntries_concat, keys_put, ih, List.map_append, List.map_singleton, distinct_concat]

/-- Under each key a table of entries has the value that was entered last. -/
theorem lookup_ofEntries (entries : List (κ × α)) (key : κ) :
    (ofEntries entries).lookup key = lastValue entries key := by
  induction entries using List.reverseRecOn with
  | nil => rfl
  | append_singleton entries entry ih =>
    rw [ofEntries_concat, lookup_put, ih, lastValue, lastValue, List.reverse_concat, List.lookup_cons]
    cases key == entry.1 <;> rfl

/-- Entries with distinct keys are their own table. -/
lemma ofEntries_of_keyed {entries : List (κ × α)} (h : Keyed entries) : ofEntries entries = entries := by
  induction entries using List.reverseRecOn with
  | nil => rfl
  | append_singleton entries entry ih =>
    rw [Keyed, List.map_append, List.map_singleton, List.nodup_append] at h
    have hnew : entry.1 ∉ entries.map Prod.fst := fun hmem =>
      h.2.2 entry.1 hmem entry.1 (List.mem_singleton.2 rfl) rfl
    rw [ofEntries_concat, ih h.1, put_of_notMem hnew]

lemma keyed_ofEntries (entries : List (κ × α)) : Keyed (ofEntries entries) := by
  rw [Keyed, keys_ofEntries]
  exact nodup_distinct _

lemma lookup_of_mem {table : Table κ α} (h : Keyed table) {key : κ} {value : α}
    (hmem : (key, value) ∈ table) : table.lookup key = some value := by
  induction table with
  | nil => cases hmem
  | cons entry rest ih =>
    rw [Keyed, List.map_cons, List.nodup_cons] at h
    rcases List.mem_cons.1 hmem with rfl | hmem
    · rw [List.lookup_cons_self]
    · have hne : (key == entry.1) = false := by
        rw [Bool.eq_false_iff]
        exact fun he => h.1 (LawfulBEq.eq_of_beq he ▸ List.mem_map_of_mem hmem)
      rw [List.lookup_cons, hne]
      exact ih h.2 hmem

lemma mem_of_lookup {table : Table κ α} {key : κ} {value : α} (h : table.lookup key = some value) :
    (key, value) ∈ table := by
  obtain ⟨before, after, hsplit, -⟩ := List.lookup_eq_some_iff.1 h
  rw [hsplit]
  simp

/-- A table has each key once, so the order of its entries does not matter. -/
lemma lastValue_of_keyed {table : Table κ α} (h : Keyed table) (key : κ) :
    lastValue table key = table.lookup key := by
  have hreverse : Keyed table.reverse := by
    rw [Keyed, List.map_reverse, List.nodup_reverse]
    exact h
  cases hfound : table.lookup key with
  | none =>
    rw [lastValue, List.lookup_eq_none_iff]
    rw [List.lookup_eq_none_iff] at hfound
    exact fun p hp => hfound p (List.mem_reverse.1 hp)
  | some value =>
    obtain ⟨before, after, hsplit, -⟩ := List.lookup_eq_some_iff.1 hfound
    have hmem : (key, value) ∈ table := by
      rw [hsplit]
      simp
    exact lookup_of_mem hreverse (List.mem_reverse.2 hmem)

end Handoff.Table
