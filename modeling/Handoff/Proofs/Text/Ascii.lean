import Handoff.Proofs.World.Running
import Handoff.Text.LowerCase
import Handoff.Text.Pascal
import Handoff.Text.Slug
import Std.Data.String.ToInt

/-!
Texts over classes of ASCII characters: words, slugs and numerals, and their lower case.

In ASCII the lower case of a text is that of its characters one by one, and leaves numerals and
slugs as they are.
-/

namespace Handoff

namespace CodePoint

@[simp] lemma toNat_char (c : Char) : (char c).toNat = c.toNat := rfl

lemma le_iff {a b : CodePoint} : a ≤ b ↔ a.toNat ≤ b.toNat := Iff.rfl

/-- A code point of ASCII is the character of its number. -/
lemma eq_ofNat {c : CodePoint} (h : c.toNat < 128) : c = char (Char.ofNat c.toNat) := by
  cases c with
  | char d => simp
  | surrogate i =>
    simp only [toNat, firstSurrogate] at h
    omega

/-- What holds of the characters below 128 holds of a code point of ASCII. -/
lemma ascii_induction {P : CodePoint → Prop} (hP : ∀ n < 128, P (char (Char.ofNat n)))
    {c : CodePoint} (h : c.toNat < 128) : P c := by
  rw [eq_ofNat h]
  exact hP _ h

end CodePoint

namespace Text

variable {p q : CodePoint → Bool} {a b : Text}

lemma ext_toList (h : a.toList = b.toList) : a = b := by
  cases a
  cases b
  exact congrArg ofList h

@[simp] lemma toList_ofString (s : String) : (ofString s).toList = s.toList.map .char := rfl

lemma append_assoc (a b c : Text) : a ++ b ++ c = a ++ (b ++ c) :=
  ext_toList (List.append_assoc ..)

lemma append_left_cancel {a b c : Text} (h : a ++ b = a ++ c) : b = c :=
  ext_toList (List.append_cancel_left (congrArg toList h))

lemma ofString_inj {s t : String} : ofString s = ofString t ↔ s = t := by
  refine ⟨fun h => ?_, fun h => h ▸ rfl⟩
  have hl := congrArg toList h
  simp only [toList_ofString] at hl
  have hchars : s.toList = t.toList := (List.map_inj_right fun _ _ => CodePoint.char.inj).1 hl
  exact String.toList_inj.1 hchars

/-- Numbered names differ when their numbers do. -/
lemma numbered_inj {front : Text} {j k : Nat}
    (h : front ++ ofString (toString j) = front ++ ofString (toString k)) : j = k := by
  have hnumbers := ofString_inj.1 (append_left_cancel h)
  rw [Nat.toString_eq_repr, Nat.toString_eq_repr] at hnumbers
  exact Nat.repr_inj.1 hnumbers

/-- The text consists of characters of a class. -/
def Over (p : CodePoint → Bool) (text : Text) : Prop := ∀ c ∈ text.toList, p c = true

lemma over_append : Over p (a ++ b) ↔ Over p a ∧ Over p b := by
  simp only [Over, toList_append, List.forall_mem_append]

lemma Over.mono (h : Over p a) (hpq : ∀ c, p c = true → q c = true) : Over q a :=
  fun c hc => hpq c (h c hc)

lemma over_ofString {s : String} (h : s.toList.all (fun c => p c) = true) : Over p s := by
  intro c hc
  obtain ⟨d, hd, rfl⟩ := List.mem_map.1 hc
  exact List.all_eq_true.1 h d hd

/-! ### Words, slugs and numerals -/

/-- The digits of numerals. -/
def isNumeralChar (c : CodePoint) : Bool := '0' ≤ c && c ≤ '9'

lemma isNumeralChar_iff {c : CodePoint} : isNumeralChar c = true ↔ 48 ≤ c.toNat ∧ c.toNat ≤ 57 := by
  simp [isNumeralChar, CodePoint.le_iff]

lemma isWordChar_iff {c : CodePoint} :
    isWordChar c = true ↔ (97 ≤ c.toNat ∧ c.toNat ≤ 122) ∨ (65 ≤ c.toNat ∧ c.toNat ≤ 90) ∨
      (48 ≤ c.toNat ∧ c.toNat ≤ 57) := by
  simp [isWordChar, CodePoint.le_iff, or_assoc]

lemma isSlugChar_iff {c : CodePoint} :
    isSlugChar c = true ↔ (97 ≤ c.toNat ∧ c.toNat ≤ 122) ∨ (48 ≤ c.toNat ∧ c.toNat ≤ 57) ∨
      c.toNat = 45 ∨ c.toNat = 95 := by
  simp [isSlugChar, CodePoint.le_iff, or_assoc, ← CodePoint.toNat_inj]

lemma isWordChar_of_numeral {c : CodePoint} (h : isNumeralChar c = true) : isWordChar c = true := by
  have := isNumeralChar_iff.1 h
  exact isWordChar_iff.2 (by omega)

lemma over_numeral (n : Nat) : Over isNumeralChar (toString n : String) := by
  intro c hc
  obtain ⟨d, hd, rfl⟩ := List.mem_map.1 hc
  rw [Nat.toString_eq_repr, Nat.toList_repr] at hd
  have hdigit := Nat.isDigit_of_mem_toDigits (by decide) (by decide) hd
  simp only [Char.isDigit, Bool.and_eq_true, decide_eq_true_eq, UInt32.le_iff_toNat_le] at hdigit
  exact isNumeralChar_iff.2 hdigit

lemma toString_of_nonneg {k : Int} (h : 0 ≤ k) : toString k = toString k.toNat := by
  rw [Int.toString_eq_repr, Int.repr_eq_if, if_pos h, Nat.toString_eq_repr]

lemma toString_int_inj {j k : Int} (h : toString j = toString k) : j = k := by
  rw [Int.toString_eq_repr, Int.toString_eq_repr] at h
  exact Int.repr_inj.1 h

/-! ### Pascal case -/

/-- What holds of the letters and digits of ASCII one by one holds of all of them. -/
lemma word_induction {P : CodePoint → Prop}
    (hP : ∀ n < 128, isWordChar (.char (Char.ofNat n)) = true → P (.char (Char.ofNat n)))
    {c : CodePoint} (h : isWordChar c = true) : P c := by
  have hc : c.toNat < 128 := by
    have := isWordChar_iff.1 h
    omega
  revert h
  exact CodePoint.ascii_induction (P := fun c => isWordChar c = true → P c) hP hc

lemma isWordChar_toUpper {c : CodePoint} (h : isWordChar c = true) :
    isWordChar (c.mapChar Char.toUpper) = true :=
  word_induction (P := fun c => isWordChar (c.mapChar Char.toUpper) = true) (by decide +kernel) h

lemma isWordChar_toLower {c : CodePoint} (h : isWordChar c = true) :
    isWordChar (c.mapChar Char.toLower) = true :=
  word_induction (P := fun c => isWordChar (c.mapChar Char.toLower) = true) (by decide +kernel) h

/-- The runs of a list consist of characters that are no separators. -/
lemma forall_mem_runsFrom {separator : CodePoint → Bool} {current l run : List CodePoint}
    (hc : ∀ c ∈ current, separator c = false) (hr : run ∈ runsFrom separator current l) :
    ∀ c ∈ run, separator c = false := by
  induction l generalizing current with
  | nil =>
    rw [runsFrom] at hr
    split at hr
    · cases hr
    · cases List.mem_singleton.1 hr
      simpa using hc
  | cons c rest ih =>
    rw [runsFrom] at hr
    split at hr
    · split at hr
      · exact ih (by simp) hr
      · rcases List.mem_cons.1 hr with rfl | hr
        · simpa using hc
        · exact ih (by simp) hr
    · rename_i hsep
      refine ih (fun d hd => ?_) hr
      rcases List.mem_cons.1 hd with rfl | hd
      · simpa using hsep
      · exact hc d hd

theorem over_pascal (label : Text) : Over isWordChar (pascal label) := by
  intro c hc
  obtain ⟨run, hrun, hc⟩ := List.mem_flatMap.1 hc
  have hword : ∀ d ∈ run, isWordChar d = true := fun d hd => by
    simpa using forall_mem_runsFrom (by simp) hrun d hd
  cases run with
  | nil => cases hc
  | cons d rest =>
    rcases List.mem_cons.1 hc with rfl | hc
    · exact isWordChar_toUpper (hword d List.mem_cons_self)
    · obtain ⟨e, he, rfl⟩ := List.mem_map.1 hc
      exact isWordChar_toLower (hword e (List.mem_cons_of_mem _ he))

/-- The capital letters of ASCII. -/
def isCapital (c : CodePoint) : Bool := 'A' ≤ c && c ≤ 'Z'

lemma isCapital_iff {c : CodePoint} : isCapital c = true ↔ 65 ≤ c.toNat ∧ c.toNat ≤ 90 := by
  simp [isCapital, CodePoint.le_iff]

lemma isWordChar_of_capital {c : CodePoint} (h : isCapital c = true) : isWordChar c = true :=
  isWordChar_iff.2 (.inr (.inl (isCapital_iff.1 h)))

/-- The text begins with a capital letter. -/
def BeginsLarge (text : Text) : Prop := text.toList.head?.any isCapital = true

instance : DecidablePred BeginsLarge := fun text =>
  inferInstanceAs (Decidable (text.toList.head?.any isCapital = true))

lemma beginsLarge_iff : BeginsLarge a ↔ ∃ c rest, a.toList = c :: rest ∧ isCapital c = true := by
  unfold BeginsLarge
  cases a.toList <;> simp

lemma BeginsLarge.append (h : BeginsLarge a) (b : Text) : BeginsLarge (a ++ b) := by
  obtain ⟨c, rest, hl, hc⟩ := beginsLarge_iff.1 h
  exact beginsLarge_iff.2 ⟨c, rest ++ b.toList, by rw [toList_append, hl, List.cons_append], hc⟩

lemma toUpper_of_word {c : CodePoint} (h : isWordChar c = true) :
    isCapital (c.mapChar Char.toUpper) = true ∨ isNumeralChar (c.mapChar Char.toUpper) = true :=
  word_induction (P := fun c => isCapital (c.mapChar Char.toUpper) = true ∨
    isNumeralChar (c.mapChar Char.toUpper) = true) (by decide +kernel) h

/-- A Pascal case begins with a capital letter or a digit, if there is anything in it. -/
lemma head_pascal (label : Text) : (pascal label).toList = [] ∨
    ∃ c rest, (pascal label).toList = c :: rest ∧ (isCapital c = true ∨ isNumeralChar c = true) := by
  have hruns : ∀ run ∈ runs (fun c => !isWordChar c) label.toList, ∀ c ∈ run,
      isWordChar c = true := fun run hrun c hc => by
    simpa using forall_mem_runsFrom (by simp) hrun c hc
  simp only [pascal]
  generalize runs (fun c => !isWordChar c) label.toList = words at hruns
  induction words with
  | nil => exact Or.inl rfl
  | cons word rest ih =>
    obtain ⟨hword, hrest⟩ := List.forall_mem_cons.1 hruns
    cases word with
    | nil => exact ih hrest
    | cons c more =>
      exact Or.inr ⟨_, _, rfl, toUpper_of_word (hword c List.mem_cons_self)⟩

/-! ### Lower case -/

/-- The small letter of an ASCII character. -/
def small (c : CodePoint) : CodePoint :=
  if 'A' ≤ c ∧ c ≤ 'Z' then .char (Char.ofNat (c.toNat + 32)) else c

lemma lowerChar_of_ascii {c : CodePoint} (h : c.toNat < 128) : lowerChar c = [small c] := by
  simp [lowerChar, h, small]

lemma lowerFrom_of_ascii {before l : List CodePoint} (h : ∀ c ∈ l, c.toNat < 128) :
    lowerFrom before l = l.map small := by
  induction l generalizing before with
  | nil => rfl
  | cons c rest ih =>
    have hc := h c List.mem_cons_self
    have hsigma : c ≠ capitalSigma := by
      rintro rfl
      exact absurd hc (by decide)
    rw [lowerFrom, if_neg hsigma, lowerChar_of_ascii hc, ih fun d hd => h d (List.mem_cons_of_mem _ hd)]
    rfl

lemma toList_lower_of_ascii (h : ∀ c ∈ a.toList, c.toNat < 128) :
    (lower a).toList = a.toList.map small := lowerFrom_of_ascii h

lemma Over.ascii (h : Over isWordChar a) : ∀ c ∈ a.toList, c.toNat < 128 := by
  intro c hc
  have := isWordChar_iff.1 (h c hc)
  omega

lemma isSlugChar_small {c : CodePoint} (h : isWordChar c = true) : isSlugChar (small c) = true :=
  word_induction (P := fun c => isSlugChar (small c) = true) (by decide +kernel) h

/-- The lower case of a word is a slug. -/
lemma over_lower (h : Over isWordChar a) : Over isSlugChar (lower a) := by
  intro c hc
  rw [toList_lower_of_ascii h.ascii] at hc
  obtain ⟨d, hd, rfl⟩ := List.mem_map.1 hc
  exact isSlugChar_small (h d hd)

lemma small_of_numeral {c : CodePoint} (h : isNumeralChar c = true) : small c = c := by
  have := isNumeralChar_iff.1 h
  refine if_neg fun hc => ?_
  have h1 : 65 ≤ c.toNat := hc.1
  omega

/-- The lower case of a word with a numeral behind it. -/
lemma lower_append_numeral (ha : Over isWordChar a) (hb : Over isNumeralChar b) :
    lower (a ++ b) = lower a ++ b := by
  have hascii : ∀ c ∈ (a ++ b).toList, c.toNat < 128 := by
    intro c hc
    rcases List.mem_append.1 hc with hc | hc
    · exact ha.ascii c hc
    · have := isNumeralChar_iff.1 (hb c hc)
      omega
  refine ext_toList ?_
  rw [toList_lower_of_ascii hascii, toList_append, toList_append, List.map_append,
    toList_lower_of_ascii ha.ascii]
  congr 1
  exact (List.map_congr_left fun c hc => small_of_numeral (hb c hc)).trans (List.map_id _)

end Text

end Handoff
