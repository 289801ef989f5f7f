import Mathlib.Data.List.Perm.Subperm
import Handoff.Naming.Component
import Handoff.Naming.Element
import Handoff.Proofs.Text.Ascii

/-!
Names are fresh.

The search for a free name tries one candidate more than there are names taken; the candidates are
distinct, so one of them is free. The names given are words for components and slugs for elements.
-/

namespace Handoff.Naming

open Text

/-! ### The search -/

/-- The search ends with a free candidate, or with the last one after all before it were taken. -/
lemma firstFree_cases (taken : Text → Bool) (candidate : Int → Text) (k : Int) (bound : Nat) :
    ∃ j, k ≤ j ∧ firstFree taken candidate k bound = candidate j ∧
      (taken (candidate j) = false ∨
        j = k + bound ∧ ∀ i : Nat, i < bound → taken (candidate (k + i)) = true) := by
  induction bound generalizing k with
  | zero => exact ⟨k, Int.le_refl k, rfl, Or.inr ⟨by simp, fun i hi => by omega⟩⟩
  | succ bound ih =>
    rw [firstFree]
    cases hk : taken (candidate k) with
    | false => exact ⟨k, Int.le_refl k, rfl, Or.inl hk⟩
    | true =>
      obtain ⟨j, hj, he, hc⟩ := ih (k + 1)
      refine ⟨j, by omega, he, hc.imp id fun ⟨hlast, hall⟩ => ⟨by omega, fun i hi => ?_⟩⟩
      cases i with
      | zero => simpa using hk
      | succ i =>
        have := hall i (by omega)
        rwa [show k + ((i + 1 : Nat) : Int) = k + 1 + i by omega]

/-- A set cannot hold more distinct texts than its size. -/
lemma exists_not_contains (used : Std.TreeSet Text) (f : Nat → Text)
    (hf : ∀ i j, f i = f j → i = j) : ∃ i ≤ used.size, used.contains (f i) = false := by
  by_contra hall
  simp only [not_exists, not_and, Bool.not_eq_false] at hall
  have hnodup : ((List.range (used.size + 1)).map f).Nodup :=
    List.pairwise_map.2 (List.nodup_range.imp fun hne he => hne (hf _ _ he))
  have hsub : (List.range (used.size + 1)).map f ⊆ used.toList := by
    intro x hx
    obtain ⟨i, hi, rfl⟩ := List.mem_map.1 hx
    rw [Std.TreeSet.mem_toList, Std.TreeSet.mem_iff_contains]
    exact hall i (by simp at hi; omega)
  have hle := (List.subperm_of_subset hnodup hsub).length_le
  rw [List.length_map, List.length_range, Std.TreeSet.length_toList] at hle
  omega

/-- The search ends with a free candidate when it may try as many as there are names taken. -/
theorem firstFree_fresh (used : Std.TreeSet Text) (key : Text → Text) (candidate : Int → Text)
    (k : Int) (hinj : ∀ i j, k ≤ i → k ≤ j → key (candidate i) = key (candidate j) → i = j) :
    ∃ j, k ≤ j ∧
      firstFree (fun name => used.contains (key name)) candidate k used.size = candidate j ∧
      used.contains (key (candidate j)) = false := by
  obtain ⟨j, hj, he, hfree | ⟨hlast, htaken⟩⟩ :=
    firstFree_cases (fun name => used.contains (key name)) candidate k used.size
  · exact ⟨j, hj, he, hfree⟩
  · obtain ⟨i, hi, hfree⟩ := exists_not_contains used
      (fun i : Nat => key (candidate (k + i)))
      fun i i' h => by
        have := hinj _ _ (by omega) (by omega) h
        omega
    refine ⟨j, hj, he, ?_⟩
    rcases Nat.lt_or_eq_of_le hi with hlt | rfl
    · rw [htaken i hlt] at hfree
      cases hfree
    · rw [hlast]
      exact hfree

/-! ### Component names -/

namespace ComponentNames

variable {names names' : ComponentNames} {label : Value} {name : Text}

lemma base_word (h : base .standard label = .ok name) : Over isWordChar name ∧ name ≠ "" := by
  obtain ⟨pascal, hp, h⟩ := bind_eq_ok.1 h
  have hword : Over isWordChar pascal := by
    obtain ⟨text, -, ht⟩ := bind_eq_ok.1 hp
    cases ht
    exact over_pascal text
  have hstart : Over isWordChar (if pascal.isEmpty then Rules.standard.fallbackComponent else pascal) := by
    split
    · exact over_ofString (by decide)
    · exact hword
  simp only at h
  generalize (if pascal.isEmpty then Rules.standard.fallbackComponent else pascal) = start at h hstart
  split at h
  · cases h
  · rename_i c rest hc
    cases h
    have hne : start ≠ "" := by
      rintro rfl
      cases hc
    split
    · refine ⟨over_append.2 ⟨over_ofString (by decide), hstart⟩, fun he => ?_⟩
      have := congrArg Text.toList he
      simp [Rules.standard] at this
    · exact ⟨hstart, hne⟩

/-- The name given is a nonempty word, it was free, and it is taken from then on. -/
theorem resolve_eq_ok (h : names.resolve .standard label = .ok (name, names')) :
    Over isWordChar name ∧ name ≠ "" ∧ names.taken name = false ∧
      names'.used = names.used.insert (lower name) := by
  obtain ⟨base, hbase, h⟩ := bind_eq_ok.1 h
  obtain ⟨hword, hne⟩ := base_word hbase
  obtain ⟨rfl, rfl⟩ := Prod.mk.inj (Except.ok.inj h)
  suffices hc : Over isWordChar (names.choose .standard base) ∧
      names.choose .standard base ≠ "" ∧ names.taken (names.choose .standard base) = false from
    ⟨hc.1, hc.2.1, hc.2.2, rfl⟩
  unfold choose
  split
  · have hnumeral {k : Int} (hk : 2 ≤ k) : Over isNumeralChar (toString k : String) := by
      rw [toString_of_nonneg (by omega)]
      exact over_numeral _
    obtain ⟨j, hj, he, hfree⟩ := firstFree_fresh names.used lower
      (fun k => base ++ toString k) Rules.standard.firstSuffix
      fun i j hi hj h => by
        rw [lower_append_numeral hword (hnumeral hi), lower_append_numeral hword (hnumeral hj)] at h
        exact toString_int_inj (ofString_inj.1 (append_left_cancel h))
    have hchoice : firstFree names.taken (fun k => base ++ toString k) Rules.standard.firstSuffix
        names.used.size = base ++ toString j := he
    rw [hchoice]
    refine ⟨over_append.2 ⟨hword, (hnumeral hj).mono fun c hc => ?_⟩, fun h => hne ?_, hfree⟩
    · have := isNumeralChar_iff.1 hc
      exact isWordChar_iff.2 (by omega)
    · have := congrArg Text.toList h
      exact ext_toList (List.append_eq_nil_iff.1 this).1
  · rename_i hfree
    exact ⟨hword, hne, by simpa using hfree⟩

lemma isDigit_of_numeral {c : CodePoint} (h : isNumeralChar c = true) : isDigit c = true :=
  word_induction (P := fun c => isNumeralChar c = true → isDigit c = true) (by decide +kernel)
    (isWordChar_of_numeral h) h

lemma base_beginsLarge (h : base .standard label = .ok name) : BeginsLarge name := by
  obtain ⟨pascal, hp, h⟩ := bind_eq_ok.1 h
  obtain ⟨text, -, ht⟩ := bind_eq_ok.1 hp
  cases ht
  simp only at h
  split at h
  · cases h
  · rename_i c rest hc
    cases h
    split
    · exact BeginsLarge.append (by decide) _
    · rename_i hdigit
      refine beginsLarge_iff.2 ⟨c, rest, hc, ?_⟩
      split at hc
      · cases hc
        decide
      · -- The first character is no digit, so it is a capital.
        rcases head_pascal text with hnil | ⟨d, more, hd, hcapital | hnumeral⟩
        · rw [hnil] at hc
          cases hc
        · obtain ⟨rfl, -⟩ := List.cons.inj (hd.symm.trans hc)
          exact hcapital
        · obtain ⟨rfl, -⟩ := List.cons.inj (hd.symm.trans hc)
          exact absurd (isDigit_of_numeral hnumeral) hdigit

/-- A component name begins with a capital letter. -/
theorem resolve_beginsLarge (h : names.resolve .standard label = .ok (name, names')) :
    BeginsLarge name := by
  obtain ⟨base, hbase, h⟩ := bind_eq_ok.1 h
  obtain ⟨rfl, -⟩ := Prod.mk.inj (Except.ok.inj h)
  have hlarge := base_beginsLarge hbase
  unfold choose
  split
  · obtain ⟨j, -, he, -⟩ := firstFree_cases names.taken (fun k => base ++ toString k)
      Rules.standard.firstSuffix names.used.size
    rw [he]
    exact hlarge.append _
  · exact hlarge

end ComponentNames

/-! ### Element classes -/

namespace ElementNames

variable {names names' : ElementNames} {label : Value} {name : Text}

lemma over_numbered {base : Text} {k : Int} (h : Over isSlugChar base) (hk : 0 ≤ k) :
    Over isSlugChar (numbered base k) := by
  refine over_append.2 ⟨over_append.2 ⟨h, over_ofString (by decide)⟩, ?_⟩
  rw [toString_of_nonneg hk]
  refine (over_numeral _).mono fun c hc => ?_
  have := isNumeralChar_iff.1 hc
  exact isSlugChar_iff.2 (by omega)

/-- The class chosen is free: the wanted one, or that with a number. -/
lemma choose_cases (rules : Rules) (names : ElementNames) (slug : Text) :
    names.used.contains (names.choose rules slug) = false ∧
      (names.choose rules slug = names.base rules slug ∨
        ∃ k, 1 ≤ k ∧ names.choose rules slug = numbered (names.base rules slug) k) := by
  simp only [choose]
  split
  · obtain ⟨k, hk, he, hfree⟩ := firstFree_fresh names.used id (numbered (names.base rules slug)) 1
      fun i j _ _ h => toString_int_inj (ofString_inj.1 (append_left_cancel h))
    have hchoice : firstFree names.used.contains (numbered (names.base rules slug)) 1
        names.used.size = numbered (names.base rules slug) k := he
    rw [hchoice]
    exact ⟨hfree, .inr ⟨k, hk, rfl⟩⟩
  · rename_i hfree
    exact ⟨Bool.eq_false_iff.2 hfree, .inl rfl⟩

lemma numbered_ne_empty {base : Text} (k : Int) : numbered base k ≠ "" := by
  intro h
  have hlist := congrArg Text.toList h
  simp [numbered] at hlist

/-- The class given is a nonempty slug, it was free, and it is taken from then on. -/
theorem resolve_eq_ok (h : names.resolve .standard label = .ok (name, names')) :
    Over isSlugChar name ∧ name ≠ "" ∧ names.used.contains name = false ∧
      names'.used = names.used.insert name := by
  obtain ⟨slug, hslug, h⟩ := bind_eq_ok.1 h
  obtain ⟨rfl, rfl⟩ := Prod.mk.inj (Except.ok.inj h)
  have hover : Over isSlugChar slug := by
    obtain ⟨text, -, ht⟩ := bind_eq_ok.1 hslug
    cases ht
    exact isSlug_slug text
  have hbase : Over isSlugChar (names.base .standard slug) ∧ names.base .standard slug ≠ "" := by
    unfold base
    split
    · exact ⟨over_numbered (k := (names.labels + 1 : Nat)) (over_ofString (by decide)) (by omega),
        numbered_ne_empty ((names.labels + 1 : Nat) : Int)⟩
    · rename_i hne
      refine ⟨hover, fun he => hne ?_⟩
      rw [he]
      rfl
  obtain ⟨hfree, hchosen | ⟨k, hk, hchosen⟩⟩ := choose_cases .standard names slug
  · rw [hchosen] at hfree ⊢
    exact ⟨hbase.1, hbase.2, hfree, rfl⟩
  · rw [hchosen] at hfree ⊢
    exact ⟨over_numbered hbase.1 (by omega), numbered_ne_empty k, hfree, rfl⟩

end ElementNames

end Handoff.Naming
