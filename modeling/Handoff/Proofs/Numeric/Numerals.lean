import Mathlib.Data.List.TakeWhile
import Handoff.Proofs.Numeric.Exact
import Handoff.Proofs.Numeric.Spelling

/-!
What decimal numerals denote.

A plain numeral is read back to its exact value. A numeral that is written positionally is plain and has the
value of its digits; one that is written with an exponent is not plain. Rounding to significant digits
keeps a value that is a multiple of the last one.
-/

namespace Handoff.Numeric

/-! ### Reading plain numerals -/

/-- The value of digits before a point and digits behind it. -/
def placeValue (whole fraction : List Char) : ℚ :=
  Nat.ofDigitChars 10 (whole ++ fraction) 0 / 10 ^ fraction.length

/-- The value of a numeral by what comes behind its first digits: nothing, or a point with more digits, the
last of them not zero. -/
def fractionValue? (whole : List Char) : List Char → Option ℚ
  | [] => some (placeValue whole [])
  | '.' :: fraction =>
    if fraction.all Char.isDigit && fraction.getLast?.any (· != '0') then some (placeValue whole fraction)
    else none
  | _ => none

/-- The value of a plain numeral without a sign. -/
def unsignedValue? (numeral : List Char) : Option ℚ :=
  match numeral.takeWhile Char.isDigit with
  | [] => none
  | whole => fractionValue? whole (numeral.dropWhile Char.isDigit)

/-- A number with its sign. -/
def signed (negative : Bool) (q : ℚ) : ℚ := if negative then -q else q

lemma signed_inj {negative : Bool} {a b : ℚ} : signed negative a = signed negative b ↔ a = b := by
  cases negative
  · exact Iff.rfl
  · exact neg_inj

lemma signed_abs (q : ℚ) : signed (decide (q.num < 0)) |q| = q := by
  by_cases h : q < 0
  · simp [signed, h, abs_of_neg h]
  · simp [signed, h, abs_of_nonneg (not_lt.1 h)]

/-- The value of a plain numeral. One with an exponent, or with a zero at the end of its fraction, is not
plain. -/
def plainValue? : List Char → Option ℚ
  | '-' :: numeral => (unsignedValue? numeral).map (signed true)
  | numeral => unsignedValue? numeral

example : plainValue? "-12.25".toList = some (-(1225 / 100)) := by decide +kernel

example : plainValue? "1e+06".toList = none := by decide +kernel

variable {whole fraction digits : List Char} {k : Nat}

lemma unsignedValue?_append {rest : List Char} (hne : whole ≠ []) (h : ∀ c ∈ whole, c.isDigit = true)
    (hrest : rest.head?.all fun c => !c.isDigit) :
    unsignedValue? (whole ++ rest) = fractionValue? whole rest := by
  have hnone : rest.takeWhile Char.isDigit = [] ∧ rest.dropWhile Char.isDigit = rest := by
    cases rest with
    | nil => exact ⟨rfl, rfl⟩
    | cons c more =>
      have hc : c.isDigit = false := by simpa using hrest
      simp [hc]
  have htake : (whole ++ rest).takeWhile Char.isDigit = whole := by
    rw [List.takeWhile_append_of_pos h, hnone.1, List.append_nil]
  have hdrop : (whole ++ rest).dropWhile Char.isDigit = rest := by
    rw [List.dropWhile_append_of_pos h, hnone.2]
  unfold unsignedValue?
  rw [htake, hdrop]
  cases whole with
  | nil => exact absurd rfl hne
  | cons c more => rfl

lemma unsignedValue?_whole (hne : whole ≠ []) (h : ∀ c ∈ whole, c.isDigit = true) :
    unsignedValue? whole = some (placeValue whole []) := by
  have hread : unsignedValue? (whole ++ []) = fractionValue? whole [] := unsignedValue?_append hne h rfl
  rwa [List.append_nil] at hread

lemma unsignedValue?_point (hne : whole ≠ []) (h : ∀ c ∈ whole, c.isDigit = true)
    (hfraction : ∀ c ∈ fraction, c.isDigit = true) (hlast : fraction.getLast?.any (· != '0') = true) :
    unsignedValue? (whole ++ '.' :: fraction) = some (placeValue whole fraction) := by
  have hall : fraction.all Char.isDigit = true := List.all_eq_true.2 hfraction
  rw [unsignedValue?_append hne h rfl, fractionValue?, hall, hlast]
  rfl

/-- A numeral with the mark of an exponent is not plain. -/
lemma unsignedValue?_of_mem {numeral : List Char} (h : 'e' ∈ numeral) : unsignedValue? numeral = none := by
  have hmark : Char.isDigit 'e' ≠ true := by decide
  have hfraction (whole rest : List Char) (hrest : 'e' ∈ rest) : fractionValue? whole rest = none := by
    unfold fractionValue?
    split
    · cases hrest
    · rename_i fraction
      have hmem : 'e' ∈ fraction := (List.mem_cons.1 hrest).resolve_left (by decide)
      refine if_neg fun hall => hmark ?_
      exact List.all_eq_true.1 (Bool.and_eq_true_iff.1 hall).1 'e' hmem
    · rfl
  rw [← List.takeWhile_append_dropWhile (p := Char.isDigit) (l := numeral), List.mem_append] at h
  unfold unsignedValue?
  split
  · rfl
  · exact hfraction _ _ (h.resolve_left fun hmem => hmark (List.mem_takeWhile_imp hmem))

lemma plainValue?_of_mem {numeral : List Char} (h : 'e' ∈ numeral) : plainValue? numeral = none := by
  unfold plainValue?
  split
  · rw [unsignedValue?_of_mem ((List.mem_cons.1 h).resolve_left (by decide))]
    rfl
  · exact unsignedValue?_of_mem h

/-- A plain numeral behind its sign. -/
lemma plainValue?_signed {body : String} {q : ℚ} (h : unsignedValue? body.toList = some q)
    (negative : Bool) :
    plainValue? ((if negative then "-" else "") ++ body).toList = some (signed negative q) := by
  cases negative with
  | true =>
    have hlist : ((if true then "-" else "") ++ body).toList = '-' :: body.toList := by simp
    rw [hlist, plainValue?, h]
    rfl
  | false =>
    have hlist : ((if false then "-" else "") ++ body).toList = body.toList := by simp
    rw [hlist]
    unfold plainValue?
    split
    · rename_i rest heq
      rw [heq] at h
      cases h
    · exact h

lemma toString_eq_digits (n : Int) : toString n =
    (if decide (n < 0) then "-" else "") ++ String.ofList (Nat.toDigits 10 n.natAbs) := by
  cases n with
  | ofNat m => exact String.empty_append.symm
  | negSucc m =>
    rw [Int.toString_eq_repr, Int.repr_eq_if, if_neg (by simp),
      decide_eq_true (Int.negSucc_lt_zero m)]
    rfl

/-- An integer in full is a plain numeral. -/
lemma plainValue?_int (n : Int) : plainValue? (toString n).toList = some (n : ℚ) := by
  have hdigits : unsignedValue? (String.ofList (Nat.toDigits 10 n.natAbs)).toList = some (n.natAbs : ℚ) := by
    rw [String.toList_ofList, unsignedValue?_whole Nat.toDigits_ne_nil (Decimal.isDigit_toDigits _), placeValue,
      List.append_nil, Nat.ofDigitChars_ten_toDigits, List.length_nil, pow_zero, div_one]
  rw [toString_eq_digits, plainValue?_signed hdigits, Nat.cast_natAbs, Int.cast_abs]
  exact congrArg some (signed_abs (n : ℚ))

/-! ### Numerals -/

namespace Decimal

variable {numeral : Decimal} {spelling : Spelling}

/-- The value of digits, of which the first counts `10 ^ exponent`. -/
def digitsMagnitude (digits : List Char) (exponent : Int) : ℚ :=
  (Nat.ofDigitChars 10 digits 0 : ℚ) * 10 ^ (exponent - (digits.length - 1))

/-- The value of a numeral. -/
def value (numeral : Decimal) : ℚ :=
  signed numeral.negative (digitsMagnitude numeral.digits numeral.exponent)

/-- There are digits, and the last is not zero. -/
structure IsProper (digits : List Char) : Prop where
  isDigit : ∀ c ∈ digits, c.isDigit = true
  last : digits.getLast?.any (· != '0') = true

lemma IsProper.ne_nil (h : IsProper digits) : digits ≠ [] := by
  rintro rfl
  cases h.last

/-- A positional numeral is plain. -/
lemma unsignedValue?_positional (hmark : spelling.wholeMark = "") (h : IsProper digits) (exponent : Int) :
    unsignedValue? (positional spelling digits exponent).toList =
      some (digitsMagnitude digits exponent) := by
  have hne := h.ne_nil
  have hzeros (k : Nat) : ∀ c ∈ List.replicate k '0', c.isDigit = true := fun c hc => by
    rw [List.eq_of_mem_replicate hc]
    decide
  cases exponent with
  | ofNat k =>
    rw [positional]
    split
    · rename_i hshort
      rw [hmark, String.append_empty, String.toList_ofList, unsignedValue?_whole (by simp [hne])
        (List.forall_mem_append.2 ⟨h.isDigit, hzeros _⟩), placeValue, List.append_nil,
        Nat.ofDigitChars_append, Nat.ofDigitChars_replicate_zero, List.length_nil, pow_zero, div_one,
        digitsMagnitude]
      have hexponent : Int.ofNat k - (digits.length - 1) = ((k + 1 - digits.length : Nat) : Int) := by
        simp only [Int.ofNat_eq_natCast]
        omega
      rw [hexponent, zpow_natCast]
      push_cast
      rw [mul_comm]
    · rename_i hlong
      have hlist : (String.ofList (digits.take (k + 1)) ++ "." ++ String.ofList (digits.drop (k + 1))).toList =
          digits.take (k + 1) ++ '.' :: digits.drop (k + 1) := by
        simp
      have hlast : (digits.drop (k + 1)).getLast?.any (· != '0') = true := by
        rw [List.getLast?_drop, if_neg (by omega)]
        exact h.last
      rw [hlist, unsignedValue?_point (by simp [hne]) (fun c hc => h.isDigit c (List.mem_of_mem_take hc))
        (fun c hc => h.isDigit c (List.mem_of_mem_drop hc)) hlast, placeValue, List.take_append_drop,
        List.length_drop, digitsMagnitude]
      have hexponent : Int.ofNat k - (digits.length - 1) = -((digits.length - (k + 1) : Nat) : Int) := by
        simp only [Int.ofNat_eq_natCast]
        omega
      rw [hexponent, zpow_neg, zpow_natCast, div_eq_mul_inv]
  | negSucc k =>
    have hlist : (positional spelling digits (.negSucc k)).toList =
        ['0'] ++ '.' :: (List.replicate k '0' ++ digits) := by
      simp [positional]
    have hlast : (List.replicate k '0' ++ digits).getLast?.any (· != '0') = true := by
      rw [List.getLast?_append_of_ne_nil _ hne]
      exact h.last
    rw [hlist, unsignedValue?_point (by simp) (List.forall_mem_singleton.2 rfl)
      (List.forall_mem_append.2 ⟨hzeros k, h.isDigit⟩) hlast, placeValue, digitsMagnitude]
    have hvalue : Nat.ofDigitChars 10 (['0'] ++ (List.replicate k '0' ++ digits)) 0 =
        Nat.ofDigitChars 10 digits 0 := by
      rw [Nat.ofDigitChars_append, Nat.ofDigitChars_append, Nat.ofDigitChars_replicate_zero]
      rfl
    have hexponent : Int.negSucc k - (digits.length - 1) =
        -(((List.replicate k '0' ++ digits).length : Nat) : Int) := by
      rw [List.length_append, List.length_replicate, Int.negSucc_eq]
      push_cast
      ring
    rw [hvalue, hexponent, zpow_neg, zpow_natCast, div_eq_mul_inv]

lemma mem_scientific (hne : digits ≠ []) (exponent : Int) : 'e' ∈ (scientific digits exponent).toList := by
  have hmark : 'e' ∈ (exponentText exponent).toList := by simp [exponentText]
  match digits with
  | [] => exact absurd rfl hne
  | [d] => simp [scientific, hmark]
  | d :: next :: rest => simp [scientific, hmark]

/-- The text of a numeral is plain exactly when it is written positionally, and then has its value. -/
theorem plainValue?_write (hmark : spelling.wholeMark = "") (h : IsProper numeral.digits) :
    plainValue? (numeral.write spelling).toList =
      if spelling.leastPositional ≤ numeral.exponent && numeral.exponent < spelling.firstScientific then
        some numeral.value
      else none := by
  by_cases hrange : spelling.leastPositional ≤ numeral.exponent &&
      numeral.exponent < spelling.firstScientific
  · rw [write, if_pos hrange, if_pos hrange,
      plainValue?_signed (unsignedValue?_positional hmark h numeral.exponent)]
    rfl
  · rw [write, if_neg hrange, if_neg hrange]
    refine plainValue?_of_mem ?_
    rw [String.toList_append, List.mem_append]
    exact .inr (mem_scientific h.ne_nil _)

/-! ### Rounded numerals -/

/-- Digits without the zeros at their end, and those zeros. -/
lemma exists_stripZeros (h : Nat.ofDigitChars 10 digits 0 ≠ 0) :
    ∃ k, digits = stripZeros digits ++ List.replicate k '0' ∧
      (stripZeros digits).getLast?.any (· != '0') = true := by
  set zeros := digits.reverse.takeWhile (· = '0') with hzeros
  set front := digits.reverse.dropWhile (· = '0') with hfront
  have hreplicate : zeros = List.replicate zeros.length '0' :=
    List.eq_replicate_iff.2 ⟨rfl, fun c hc => by simpa using List.mem_takeWhile_imp hc⟩
  have hsplit : digits = front.reverse ++ List.replicate zeros.length '0' := by
    have happend : zeros ++ front = digits.reverse := List.takeWhile_append_dropWhile
    rw [← List.reverse_reverse digits, ← happend, List.reverse_append, hreplicate, List.reverse_replicate,
      List.length_replicate]
  have hne : front.reverse ≠ [] := by
    intro hnil
    rw [hsplit, hnil, List.nil_append, Nat.ofDigitChars_replicate_zero] at h
    exact h (Nat.mul_zero _)
  have hstrip : stripZeros digits = front.reverse := by
    unfold stripZeros
    rw [← hfront]
    split
    · rename_i hnil
      exact absurd hnil hne
    · rfl
  have hhead := List.head?_dropWhile_not (fun c => decide (c = '0')) digits.reverse
  rw [← hfront] at hhead
  refine ⟨zeros.length, hstrip ▸ hsplit, ?_⟩
  rw [hstrip, List.getLast?_reverse]
  cases hcases : front with
  | nil => exact absurd (congrArg List.reverse hcases) hne
  | cons c rest =>
    rw [hcases] at hhead
    simpa using hhead

variable {c : Nat} {scale : Int}

lemma isProper_ofScaled (negative : Bool) (hc : c ≠ 0) (scale : Int) :
    IsProper (ofScaled negative c scale).digits := by
  have hvalue : Nat.ofDigitChars 10 (Nat.toDigits 10 c) 0 ≠ 0 := by
    rwa [Nat.ofDigitChars_ten_toDigits]
  obtain ⟨k, -, hlast⟩ := exists_stripZeros hvalue
  exact ⟨isDigit_stripZeros (isDigit_toDigits c), hlast⟩

lemma exponent_ofScaled (negative : Bool) (hc : c ≠ 0) (scale : Int) :
    (ofScaled negative c scale).exponent = scale + (digitCount c - 1 : Nat) :=
  if_neg hc

/-- The zeros that are left out at the end count for the exponent. -/
lemma value_ofScaled (negative : Bool) (hc : c ≠ 0) (scale : Int) :
    (ofScaled negative c scale).value = signed negative (c * 10 ^ scale) := by
  have hvalue : Nat.ofDigitChars 10 (Nat.toDigits 10 c) 0 = c := Nat.ofDigitChars_ten_toDigits
  obtain ⟨k, hsplit, -⟩ := exists_stripZeros (by rwa [hvalue])
  have hlength : digitCount c = (stripZeros (Nat.toDigits 10 c)).length + k := by
    rw [digitCount, congrArg List.length hsplit, List.length_append, List.length_replicate]
  have hpos : 0 < digitCount c := Nat.length_toDigits_pos
  rw [hsplit, Nat.ofDigitChars_append, Nat.ofDigitChars_replicate_zero] at hvalue
  have hmagnitude : digitsMagnitude (stripZeros (Nat.toDigits 10 c)) (scale + (digitCount c - 1 : Nat)) =
      c * 10 ^ scale := by
    have hexponent : scale + (digitCount c - 1 : Nat) - ((stripZeros (Nat.toDigits 10 c)).length - 1) =
        (k : Int) + scale := by
      omega
    rw [digitsMagnitude, hexponent, zpow_add₀ (by norm_num), zpow_natCast]
    calc _ = ((10 ^ k * Nat.ofDigitChars 10 (stripZeros (Nat.toDigits 10 c)) 0 : Nat) : ℚ) * 10 ^ scale := by
          push_cast
          ring
      _ = c * 10 ^ scale := by rw [hvalue]
  rw [value, exponent_ofScaled negative hc, ← hmagnitude]
  rfl

/-! ### Significant digits -/

lemma pow_digitCount_le {n : Nat} (hn : n ≠ 0) : 10 ^ (digitCount n - 1) ≤ n := by
  by_contra hlt
  have hpos : 0 < digitCount n := Nat.length_toDigits_pos
  rcases Nat.eq_zero_or_pos (digitCount n - 1) with hzero | hmore
  · rw [hzero] at hlt
    omega
  · have hle := (Nat.length_toDigits_le_iff (by decide) hmore).2 (Nat.not_le.1 hlt)
    unfold digitCount at hle hpos
    omega

lemma lt_pow_digitCount (n : Nat) : n < 10 ^ digitCount n :=
  (Nat.length_toDigits_le_iff (by decide) Nat.length_toDigits_pos).1 le_rfl

/-- The quotient lies between the power of ten that is found and the next one. -/
theorem floorLog10_spec {n d : Nat} (hn : n ≠ 0) (hd : d ≠ 0) :
    (10 : ℚ) ^ floorLog10 n d ≤ n / d ∧ (n / d : ℚ) < 10 ^ (floorLog10 n d + 1) := by
  have hd' : (0 : ℚ) < d := by exact_mod_cast Nat.pos_of_ne_zero hd
  have hten : (10 : ℚ) ≠ 0 := by norm_num
  rw [le_div_iff₀ hd', div_lt_iff₀ hd']
  have hbelow : (10 : ℚ) ^ ((digitCount n : Int) - digitCount d - 1) * d ≤ n := by
    have hlow : ((10 ^ (digitCount n - 1) : Nat) : ℚ) ≤ n := by exact_mod_cast pow_digitCount_le hn
    have hhigh : (d : ℚ) ≤ ((10 ^ digitCount d : Nat) : ℚ) := by exact_mod_cast (lt_pow_digitCount d).le
    have hpos : 0 < digitCount n := Nat.length_toDigits_pos
    calc (10 : ℚ) ^ ((digitCount n : Int) - digitCount d - 1) * d
        ≤ (10 : ℚ) ^ ((digitCount n : Int) - digitCount d - 1) * ((10 ^ digitCount d : Nat) : ℚ) := by
          gcongr
      _ = ((10 ^ (digitCount n - 1) : Nat) : ℚ) := by
        push_cast
        rw [← zpow_natCast, ← zpow_natCast, ← zpow_add₀ hten]
        congr 1
        omega
      _ ≤ n := hlow
  have habove : (n : ℚ) < 10 ^ ((digitCount n : Int) - digitCount d + 1) * d := by
    have hhigh : (n : ℚ) < ((10 ^ digitCount n : Nat) : ℚ) := by exact_mod_cast lt_pow_digitCount n
    have hlow : ((10 ^ (digitCount d - 1) : Nat) : ℚ) ≤ d := by exact_mod_cast pow_digitCount_le hd
    have hpos : 0 < digitCount d := Nat.length_toDigits_pos
    calc (n : ℚ) < ((10 ^ digitCount n : Nat) : ℚ) := hhigh
      _ = (10 : ℚ) ^ ((digitCount n : Int) - digitCount d + 1) * ((10 ^ (digitCount d - 1) : Nat) : ℚ) := by
        push_cast
        rw [← zpow_natCast, ← zpow_natCast, ← zpow_add₀ hten]
        congr 1
        omega
      _ ≤ _ := by gcongr
  -- The guess is right or one too large, and a comparison tells which.
  have hfound (guess : Int) (reached : Bool) (hlow : (10 : ℚ) ^ (guess - 1) * d ≤ n)
      (hhigh : (n : ℚ) < 10 ^ (guess + 1) * d) (hreached : reached = true ↔ (10 : ℚ) ^ guess * d ≤ n) :
      (10 : ℚ) ^ (if reached then guess else guess - 1) * d ≤ n ∧
        (n : ℚ) < 10 ^ ((if reached then guess else guess - 1) + 1) * d := by
    cases reached with
    | true => exact ⟨hreached.1 rfl, hhigh⟩
    | false =>
      refine ⟨hlow, ?_⟩
      rw [if_neg Bool.false_ne_true, sub_add_cancel]
      exact not_le.1 fun hle => Bool.false_ne_true (hreached.2 hle)
  unfold floorLog10
  simp only
  generalize (digitCount n : Int) - digitCount d = guess at hbelow habove
  cases guess with
  | ofNat k =>
    refine hfound _ _ hbelow habove ?_
    rw [decide_eq_true_iff, Int.ofNat_eq_natCast, zpow_natCast, mul_comm]
    exact_mod_cast Iff.rfl
  | negSucc k =>
    refine hfound _ _ hbelow habove ?_
    rw [decide_eq_true_iff, zpow_negSucc, inv_mul_le_iff₀ (by positivity), mul_comm n]
    exact_mod_cast Iff.rfl

lemma shifted_spec (v : ℚ) (shift : Int) :
    0 < (shifted v shift).2 ∧ ((shifted v shift).1 : ℚ) / (shifted v shift).2 = v * 10 ^ shift := by
  have hden : (v.den : ℚ) ≠ 0 := by exact_mod_cast v.den_nz
  have hnum : (v.num : ℚ) = v * v.den := by rw [mul_comm, Rat.den_mul_eq_num]
  cases shift with
  | ofNat k =>
    refine ⟨v.den_pos, ?_⟩
    simp only [shifted, Int.pow_eq, Int.ofNat_eq_natCast, zpow_natCast]
    push_cast
    rw [hnum]
    field_simp
  | negSucc k =>
    refine ⟨Nat.mul_pos v.den_pos (Nat.pow_pos (by decide)), ?_⟩
    simp only [shifted, Nat.pow_eq, zpow_negSucc]
    push_cast
    rw [hnum]
    field_simp

variable {v : ℚ} {e e' : Int} {count : Nat}

/-- The power of ten that is found for a positive value. -/
lemma floorLog10_spec_of_pos (hv : 0 < v) :
    (10 : ℚ) ^ floorLog10 v.num.natAbs v.den ≤ v ∧ v < 10 ^ (floorLog10 v.num.natAbs v.den + 1) := by
  have hnum : v.num.natAbs ≠ 0 := by simpa using hv.ne'
  have hspec := floorLog10_spec hnum v.den_nz
  rwa [← Binary64.abs_eq_natAbs_div, abs_of_pos hv] at hspec

/-- The exponent of a value tells which powers of ten it is below. -/
lemma lt_zpow_iff (hlow : (10 : ℚ) ^ e ≤ v) (hhigh : v < 10 ^ (e + 1)) (n : Int) : v < 10 ^ n ↔ e < n := by
  have hten : (1 : ℚ) < 10 := by norm_num
  refine ⟨fun h => (zpow_lt_zpow_iff_right₀ hten).1 (hlow.trans_lt h), fun h => ?_⟩
  exact hhigh.trans_le (zpow_le_zpow_right₀ hten.le (by omega))

lemma exponent_unique (hlow : (10 : ℚ) ^ e ≤ v) (hhigh : v < 10 ^ (e + 1)) (hlow' : (10 : ℚ) ^ e' ≤ v)
    (hhigh' : v < 10 ^ (e' + 1)) : e = e' := by
  have hlt := (lt_zpow_iff hlow hhigh (e' + 1)).1 hhigh'
  have hlt' := (lt_zpow_iff hlow' hhigh' (e + 1)).1 hhigh
  omega

/-- Rounding a positive value to significant digits gives the multiple of the last place that is nearest to
it, and this is not zero. -/
theorem exists_significant (hlow : (10 : ℚ) ^ e ≤ v) (hhigh : v < 10 ^ (e + 1)) (negative : Bool)
    (count : Nat) :
    ∃ c : Nat, c ≠ 0 ∧ |(c : ℚ) - v * 10 ^ ((count - 1 : Nat) - e)| ≤ 1 / 2 ∧
      significant negative v count = ofScaled negative c (e - (count - 1 : Nat)) := by
  have hv : 0 < v := lt_of_lt_of_le (by positivity) hlow
  have hlog : floorLog10 v.num.natAbs v.den = e := by
    obtain ⟨hlow', hhigh'⟩ := floorLog10_spec_of_pos hv
    exact exponent_unique hlow' hhigh' hlow hhigh
  obtain ⟨hpos, hdiv⟩ := shifted_spec v ((count - 1 : Nat) - e)
  have herror := abs_nearestInt_sub_le (shifted v ((count - 1 : Nat) - e)).1 hpos
  rw [hdiv] at herror
  -- The value has a digit at or before the last place, so it is not rounded to zero.
  have hone : (1 : ℚ) ≤ v * 10 ^ (((count - 1 : Nat) : Int) - e) := by
    calc (1 : ℚ) ≤ 10 ^ ((count - 1 : Nat) : Int) := one_le_zpow₀ (by norm_num) (by omega)
      _ = 10 ^ e * 10 ^ (((count - 1 : Nat) : Int) - e) := by
        rw [← zpow_add₀ (by norm_num), add_sub_cancel]
      _ ≤ _ := by gcongr
  unfold significant
  simp only [hlog, neg_sub]
  generalize nearestInt (shifted v ((count - 1 : Nat) - e)).1 (shifted v ((count - 1 : Nat) - e)).2 =
    near at herror
  have hnear : 0 < near := by
    have hlt : (0 : ℚ) < near := by linarith [(abs_le.1 herror).1]
    exact_mod_cast hlt
  obtain ⟨c, rfl⟩ := Int.eq_ofNat_of_zero_le hnear.le
  exact ⟨c, by omega, by exact_mod_cast herror, rfl⟩

lemma digitCount_eq {c : Nat} (hlow : 10 ^ (count - 1) ≤ c) (hhigh : c < 10 ^ count) :
    digitCount c = count := by
  have hc : c ≠ 0 := (lt_of_lt_of_le (Nat.pow_pos (by decide)) hlow).ne'
  have hlt := (Nat.pow_lt_pow_iff_right (by decide : 1 < 10)).1 (hlow.trans_lt (lt_pow_digitCount c))
  have hlt' := (Nat.pow_lt_pow_iff_right (by decide : 1 < 10)).1 ((pow_digitCount_le hc).trans_lt hhigh)
  have hpos : 0 < digitCount c := Nat.length_toDigits_pos
  omega

/-- A value that is rounded to significant digits is read back exactly when it is a multiple of the last place
and its exponent is written positionally. -/
theorem plainValue?_significant {spelling : Spelling} (hmark : spelling.wholeMark = "") (hcount : 0 < count)
    (hlow : (10 : ℚ) ^ e ≤ v) (hhigh : v < 10 ^ (e + 1)) (negative : Bool) :
    plainValue? ((significant negative v count).write spelling).toList = some (signed negative v) ↔
      (∃ m : Int, v * 10 ^ ((count - 1 : Nat) - e) = m) ∧
        spelling.leastPositional ≤ e ∧ e < spelling.firstScientific := by
  obtain ⟨c, hc, herror, hround⟩ := exists_significant hlow hhigh negative count
  have hten : (10 : ℚ) ≠ 0 := by norm_num
  rw [hround, plainValue?_write hmark (isProper_ofScaled negative hc _), value_ofScaled negative hc,
    exponent_ofScaled negative hc]
  have hvalue : (c : ℚ) * 10 ^ (e - (count - 1 : Nat)) = v ↔ v * 10 ^ ((count - 1 : Nat) - e) = c := by
    rw [← neg_sub e, zpow_neg, ← div_eq_mul_inv, div_eq_iff (zpow_ne_zero _ hten), eq_comm]
  -- An exact numeral has as many digits as there are places, so its exponent is that of the value.
  have hexponent (h : v * 10 ^ ((count - 1 : Nat) - e) = c) :
      e - (count - 1 : Nat) + (digitCount c - 1 : Nat) = e := by
    have hfirst : (10 : ℚ) ^ (count - 1) ≤ c := by
      calc (10 : ℚ) ^ (count - 1) = 10 ^ e * 10 ^ (((count - 1 : Nat) : Int) - e) := by
            rw [← zpow_add₀ hten, add_sub_cancel, zpow_natCast]
        _ ≤ v * 10 ^ (((count - 1 : Nat) : Int) - e) := by gcongr
        _ = c := h
    have hnext : (c : ℚ) < 10 ^ count := by
      calc (c : ℚ) = v * 10 ^ (((count - 1 : Nat) : Int) - e) := h.symm
        _ < 10 ^ (e + 1) * 10 ^ (((count - 1 : Nat) : Int) - e) := by gcongr
        _ = 10 ^ count := by
          rw [← zpow_add₀ hten, ← zpow_natCast]
          congr 1
          omega
    rw [digitCount_eq (by exact_mod_cast hfirst) (by exact_mod_cast hnext)]
    omega
  constructor
  · intro h
    split at h
    · rename_i hrange
      have hexact := hvalue.1 (signed_inj.1 (Option.some.inj h))
      rw [hexponent hexact] at hrange
      exact ⟨⟨c, by exact_mod_cast hexact⟩, by simpa using hrange⟩
    · cases h
  · rintro ⟨⟨m, hm⟩, hrange⟩
    have hexact : v * 10 ^ ((count - 1 : Nat) - e) = c := by
      rw [hm] at herror ⊢
      have hnear : |((c : Int) - m : Int)| < 1 := by
        have hlt : |(((c : Int) - m : Int) : ℚ)| < 1 := by
          push_cast
          linarith
        exact_mod_cast hlt
      have hsame := Int.abs_lt_one_iff.1 hnear
      have hcast : m = c := by omega
      exact_mod_cast hcast
    rw [hexponent hexact, if_pos (by simpa using hrange), hvalue.2 hexact]

end Decimal

end Handoff.Numeric
