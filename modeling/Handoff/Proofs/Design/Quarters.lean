import Handoff.Proofs.Design.Measuring
import Handoff.Proofs.Numeric.Numerals

/-!
Which measures are written exactly.

A measure is rounded to two decimals first, and then to six significant digits unless it is whole. So one
with two decimals is exact below ten thousand, one with one decimal below a hundred thousand, and a whole
one always; all others lose decimals, and from a million on they are written with an exponent.
-/

namespace Handoff.Design

open Numeric Numeric.Decimal

/-! ### Measures that two decimals are enough for -/

variable {q : ℚ} {k : Int}

/-- A whole measure is written in full. -/
lemma measureOfDouble_whole (n : Int) (hn : (Binary64.finite n).toHundredths = .finite n) :
    measureOfDouble (.finite n) = .ok (toString n) := by
  have hwhole : (Binary64.finite (n : ℚ)).truncate = .ok n := by
    simp [Binary64.truncate, Binary64.toIntBy]
  have hrat : (Binary64.finite (n : ℚ)).toRat? = some (n : ℚ) := rfl
  unfold measureOfDouble
  simp only [hn, hwhole, ok_bind]
  rw [if_pos hrat]
  rfl

/-- Any other measure has six significant digits. -/
lemma measureOfDouble_fraction (hq : (Binary64.finite q).toHundredths = .finite q)
    (h : ∀ n : Int, q ≠ n) : measureOfDouble (.finite q) =
      .ok ((significant (decide (q.num < 0)) |q| 6).write measureSpelling : String) := by
  have hnum : q.num ≠ 0 := fun hzero => h 0 (by simpa using hzero)
  have habs : mkRat q.num.natAbs q.den = |q| := by
    rw [Rat.mkRat_eq_div, Binary64.abs_eq_natAbs_div]
    rfl
  have hwhole : (Binary64.finite q).truncate = .ok (q.num.tdiv q.den) := rfl
  have hrat : (Binary64.finite q).toRat? ≠ some ((q.num.tdiv q.den : Int) : ℚ) :=
    fun heq => h _ (Option.some.inj heq)
  unfold measureOfDouble
  simp only [hq, hwhole, ok_bind]
  rw [if_neg hrat, Binary64.write, if_neg hnum, habs]
  rfl

/-- The place of the sixth digit decides whether a measure with a fraction is written exactly. -/
lemma plainValue?_fraction {e : Int} (hlow : (10 : ℚ) ^ e ≤ |q|) (hhigh : |q| < 10 ^ (e + 1)) :
    plainValue? ((significant (decide (q.num < 0)) |q| 6).write measureSpelling).toList = some q ↔
      (∃ m : Int, |q| * 10 ^ (5 - e) = m) ∧ -4 ≤ e ∧ e < 6 := by
  have hmark : measureSpelling.wholeMark = "" := rfl
  have hiff := plainValue?_significant hmark (by decide : 0 < 6) hlow hhigh (decide (q.num < 0))
  rw [signed_abs] at hiff
  exact hiff

/-! ### Quarters -/

lemma quarter_eq (k : Int) : ((k : ℚ) / 4) = k * 2 ^ (-2 : Int) := by
  norm_num [zpow_neg]
  ring

lemma abs_quarter (k : Int) : |(k : ℚ) / 4| = ((|k| : Int) : ℚ) / 4 := by
  rw [abs_div, Int.cast_abs, abs_of_pos (by norm_num : (0 : ℚ) < 4)]

/-- A quarter below `2 ^ 48` is a double, and it has two decimals. -/
lemma exact_quarter (hk : |k| < 2 ^ 50) : Binary64.ofRat ((k : ℚ) / 4) = .finite ((k : ℚ) / 4) ∧
    (Binary64.finite ((k : ℚ) / 4)).toHundredths = .finite ((k : ℚ) / 4) := by
  have hsize : |(k : ℚ) / 4| < 2 ^ 48 := by
    have hcast : ((|k| : Int) : ℚ) < 2 ^ 50 := by exact_mod_cast hk
    rw [abs_quarter]
    linarith
  have hover : (2 : ℚ) ^ 48 < Binary64.overflowBound := by
    have hone : (1 : ℚ) ≤ 2 ^ 970 := one_le_pow₀ (by norm_num)
    rw [Binary64.overflowBound_eq]
    generalize (2 : ℚ) ^ 970 = unit at hone ⊢
    norm_num
    linarith
  have hofRat : Binary64.ofRat ((k : ℚ) / 4) = .finite ((k : ℚ) / 4) :=
    Binary64.ofRat_eq_finite (quarter_eq k) (by norm_num) (hsize.trans (by norm_num)) (hsize.trans hover)
  refine ⟨hofRat, Binary64.toHundredths_eq_self (m := 25 * k) ?_ hofRat⟩
  push_cast
  ring

/-- A quarter has no digit beyond the sixth when the power of ten in that place makes it whole. -/
lemma exists_quarter_mul_iff {n e : Int} (he : e ≤ 5) :
    (∃ m : Int, (n : ℚ) / 4 * 10 ^ (5 - e) = m) ↔ 4 ∣ n * 10 ^ (5 - e).toNat := by
  have hpow : (10 : ℚ) ^ (5 - e) = 10 ^ (5 - e).toNat := by
    rw [← zpow_natCast, Int.toNat_of_nonneg (by omega)]
  refine exists_congr fun m => ?_
  rw [hpow, div_mul_eq_mul_div, div_eq_iff (by norm_num), mul_comm 4 m]
  exact_mod_cast Iff.rfl

/-- Which quarters that are not whole have no digit beyond the sixth. -/
lemma quarter_place_iff {e : Int} (h : ¬ 4 ∣ k) (hlow : (10 : ℚ) ^ e ≤ |(k : ℚ) / 4|)
    (hhigh : |(k : ℚ) / 4| < 10 ^ (e + 1)) :
    ((∃ m : Int, |(k : ℚ) / 4| * 10 ^ (5 - e) = m) ∧ -4 ≤ e ∧ e < 6) ↔
      |k| < 40000 ∨ 2 ∣ k ∧ |k| < 400000 := by
  have hlt := lt_zpow_iff hlow hhigh
  rw [abs_quarter] at hlt ⊢
  rw [← dvd_abs] at h
  rw [← dvd_abs 2 k]
  have hpos : 0 ≤ |k| := abs_nonneg k
  generalize |k| = n at h hlt hpos ⊢
  have hsmall : n < 40000 ↔ e < 4 := by
    rw [← hlt, div_lt_iff₀ (by norm_num)]
    norm_num
    exact_mod_cast Iff.rfl
  have hlarge : n < 400000 ↔ e < 5 := by
    rw [← hlt, div_lt_iff₀ (by norm_num)]
    norm_num
    exact_mod_cast Iff.rfl
  have hleast : -1 ≤ e := by
    have hone : (1 : ℚ) ≤ n := by exact_mod_cast (by omega : 1 ≤ n)
    have hnot : ¬ (n : ℚ) / 4 < 10 ^ (-1 : Int) := by
      norm_num
      linarith
    rw [hlt] at hnot
    exact not_lt.1 hnot
  rw [hsmall, hlarge]
  -- The sixth digit counts hundredths or less when e is below 4, tenths when it is 4, and ones when it is 5.
  rcases (by omega : e < 4 ∨ e = 4 ∨ e = 5 ∨ 5 < e) with hfour | rfl | rfl | hsix
  · refine iff_of_true ⟨(exists_quarter_mul_iff (by omega)).2 ?_, by omega, by omega⟩ (.inl hfour)
    have hhundred : (4 : Int) ∣ 10 ^ (5 - e).toNat :=
      dvd_trans (by decide : (4 : Int) ∣ 10 ^ 2) (pow_dvd_pow 10 (by omega))
    exact hhundred.mul_left n
  · rw [exists_quarter_mul_iff (by decide)]
    norm_num
    omega
  · rw [exists_quarter_mul_iff (by decide)]
    norm_num
    omega
  · omega

/-- A quarter below `2 ^ 48` in size is a double with two decimals. Its measure is a plain numeral that
denotes it exactly when it is whole, below ten thousand, or a half below a hundred thousand. -/
theorem measure_quarter_iff (hk : |k| < 2 ^ 50) :
    Binary64.ofRat ((k : ℚ) / 4) = .finite ((k : ℚ) / 4) ∧
      (Binary64.finite ((k : ℚ) / 4)).toHundredths = .finite ((k : ℚ) / 4) ∧
      ∃ text : String, measure (.double (.finite ((k : ℚ) / 4))) = .ok text ∧
        (plainValue? text.toList = some ((k : ℚ) / 4) ↔
          4 ∣ k ∨ |k| < 40000 ∨ 2 ∣ k ∧ |k| < 400000) := by
  obtain ⟨hofRat, hhundredths⟩ := exact_quarter hk
  refine ⟨hofRat, hhundredths, ?_⟩
  have hmeasure : measure (.double (.finite ((k : ℚ) / 4))) = measureOfDouble (.finite ((k : ℚ) / 4)) := rfl
  rw [hmeasure]
  by_cases h : 4 ∣ k
  · obtain ⟨n, rfl⟩ := h
    have hwhole : (((4 * n : Int) : ℚ) / 4) = n := by
      push_cast
      ring
    rw [hwhole] at hhundredths ⊢
    exact ⟨_, measureOfDouble_whole n hhundredths, iff_of_true (plainValue?_int n) (.inl ⟨n, rfl⟩)⟩
  · have hfraction (n : Int) : (k : ℚ) / 4 ≠ n := by
      intro heq
      refine h ⟨n, ?_⟩
      rw [div_eq_iff (by norm_num), mul_comm] at heq
      exact_mod_cast heq
    have hpos : 0 < |(k : ℚ) / 4| := abs_pos.2 (by simpa using hfraction 0)
    obtain ⟨hlow, hhigh⟩ := floorLog10_spec_of_pos hpos
    refine ⟨_, measureOfDouble_fraction hhundredths hfraction, ?_⟩
    rw [plainValue?_fraction hlow hhigh, quarter_place_iff h hlow hhigh, or_iff_right h]

theorem measure_quarter_iff_width : |(49 : Int)| < 2 ^ 50 ∧
    ∃ text : String, measure (.double (.finite (((49 : Int) : ℚ) / 4))) = .ok text ∧
      plainValue? text.toList = some (((49 : Int) : ℚ) / 4) := by
  have hk : |(49 : Int)| < 2 ^ 50 := by decide
  obtain ⟨-, -, text, hmeasure, hiff⟩ := measure_quarter_iff hk
  exact ⟨hk, text, hmeasure, hiff.2 (.inr (.inl (by decide)))⟩

/-- From ten thousand on, a measure with two decimals loses the second. -/
theorem measure_widePage : |(49383 : Int)| < 2 ^ 50 ∧
    measure (.double (.finite (49383 / 4))) = .ok "12345.8" ∧
    plainValue? "12345.8".toList ≠ some (49383 / 4) := by
  decide +kernel

end Handoff.Design
