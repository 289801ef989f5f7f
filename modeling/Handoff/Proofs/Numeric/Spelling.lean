import Handoff.Design.Measure
import Handoff.Proofs.Text.Ascii

/-!
The characters of numbers in style sheets: digits, signs, a point and the mark of an exponent.
-/

namespace Handoff

namespace Numeric.Decimal

/-- The characters of a number. -/
def isDecimalChar (c : Char) : Bool := c.isDigit || c == '-' || c == '+' || c == '.' || c == 'e'

/-- The text of a number. -/
def IsDecimalText (text : String) : Prop := ∀ c ∈ text.toList, isDecimalChar c = true

/-- A numeral with proper digits. -/
def HasDigits (numeral : Decimal) : Prop := ∀ c ∈ numeral.digits, c.isDigit = true

variable {digits : List Char} {a b : String} {spelling : Spelling} {numeral : Decimal}

namespace IsDecimalText

lemma append (ha : IsDecimalText a) (hb : IsDecimalText b) : IsDecimalText (a ++ b) := by
  rw [IsDecimalText, String.toList_append, List.forall_mem_append]
  exact ⟨ha, hb⟩

lemma of_digits (h : ∀ c ∈ digits, c.isDigit = true) : IsDecimalText (String.ofList digits) := by
  intro c hc
  rw [String.toList_ofList] at hc
  simp [isDecimalChar, h c hc]

lemma ite {c : Prop} [Decidable c] (ha : IsDecimalText a) (hb : IsDecimalText b) :
    IsDecimalText (if c then a else b) := by
  split
  · exact ha
  · exact hb

instance (text : String) : Decidable (IsDecimalText text) :=
  List.decidableBAll (isDecimalChar · = true) text.toList

end IsDecimalText

lemma isDigit_toDigits (n : Nat) : ∀ c ∈ Nat.toDigits 10 n, c.isDigit = true :=
  fun _ hc => Nat.isDigit_of_mem_toDigits (by decide) (by decide) hc

lemma isDecimalText_int (n : Int) : IsDecimalText (toString n) := by
  rw [Int.toString_eq_repr, Int.repr_eq_if]
  split
  · exact .of_digits (isDigit_toDigits _)
  · exact .append (by decide) (.of_digits (isDigit_toDigits _))

/-! ### Numerals -/

lemma isDigit_stripZeros (h : ∀ c ∈ digits, c.isDigit = true) :
    ∀ c ∈ stripZeros digits, c.isDigit = true := by
  intro c hc
  unfold stripZeros at hc
  split at hc
  · rw [List.mem_singleton.1 hc]
    decide
  · exact h c (List.mem_reverse.1 ((List.dropWhile_sublist _).subset (List.mem_reverse.1 hc)))

lemma hasDigits_significant (negative : Bool) (value : Rat) (count : Nat) :
    (significant negative value count).HasDigits :=
  isDigit_stripZeros (isDigit_toDigits _)

lemma isDecimalText_exponentText (exponent : Int) : IsDecimalText (exponentText exponent) := by
  have hdigits := IsDecimalText.of_digits (isDigit_toDigits exponent.natAbs)
  exact (IsDecimalText.append (by decide) (.ite (by decide) (by decide))).append
    (.ite (.append (by decide) hdigits) hdigits)

lemma isDecimalText_positional (hmark : IsDecimalText spelling.wholeMark)
    (h : ∀ c ∈ digits, c.isDigit = true) (exponent : Int) :
    IsDecimalText (positional spelling digits exponent) := by
  have hzeros (k : Nat) : ∀ c ∈ List.replicate k '0', c.isDigit = true := by
    intro c hc
    rw [List.eq_of_mem_replicate hc]
    decide
  unfold positional
  split
  · refine .ite (.append (.of_digits ?_) hmark) ((IsDecimalText.append (.of_digits ?_)
      (by decide)).append (.of_digits ?_))
    · exact List.forall_mem_append.2 ⟨h, hzeros _⟩
    · exact fun c hc => h c (List.mem_of_mem_take hc)
    · exact fun c hc => h c (List.mem_of_mem_drop hc)
  · exact .append (by decide) (.of_digits (List.forall_mem_append.2 ⟨hzeros _, h⟩))

lemma isDecimalText_scientific (h : ∀ c ∈ digits, c.isDigit = true) (exponent : Int) :
    IsDecimalText (scientific digits exponent) := by
  have hexponent := isDecimalText_exponentText exponent
  match digits with
  | [] => exact (by decide : IsDecimalText "")
  | [d] => exact .append (.of_digits h) hexponent
  | d :: next :: rest =>
    obtain ⟨hd, hrest⟩ := List.forall_mem_cons.1 h
    exact (((IsDecimalText.of_digits (by simpa using hd)).append (by decide)).append
      (.of_digits hrest)).append hexponent

lemma HasDigits.isDecimalText_write (h : numeral.HasDigits) (hmark : IsDecimalText spelling.wholeMark) :
    IsDecimalText (numeral.write spelling) :=
  .append (.ite (by decide) (by decide))
    (.ite (isDecimalText_positional hmark h _) (isDecimalText_scientific h _))

end Numeric.Decimal

/-! ### Measures -/

namespace Design

open Numeric Numeric.Decimal

/-- A measure is the text of a number. -/
theorem measureOfDouble_decimal {x : Binary64} {text : Text} (h : measureOfDouble x = .ok text) :
    ∃ s : String, text = s ∧ IsDecimalText s := by
  obtain ⟨whole, hwhole, h⟩ := bind_eq_ok.1 h
  split at h
  · cases h
    exact ⟨_, rfl, isDecimalText_int whole⟩
  · cases h
    refine ⟨_, rfl, ?_⟩
    -- What has an integer part is finite.
    cases hrounded : x.toHundredths with
    | finite value =>
      exact .ite (by decide) ((hasDigits_significant _ _ _).isDecimalText_write (by decide))
    | negativeZero => decide
    | infinite _ | nan =>
      rw [hrounded] at hwhole
      cases hwhole

lemma measure_decimal {value : Value} {text : Text} (h : measure value = .ok text) :
    ∃ s : String, text = s ∧ IsDecimalText s := by
  obtain ⟨x, -, h⟩ := bind_eq_ok.1 h
  exact measureOfDouble_decimal h

end Design

end Handoff
