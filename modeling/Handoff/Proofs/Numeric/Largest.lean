import Handoff.Proofs.Numeric.Magnitude

/-!
Integers up to the largest double.

Rounding does not lead past the largest double what lies below the overflow: in the topmost range of
doubles the result is a multiple of the spacing there, and the multiple after the largest double is more
than half a spacing past the overflow.
-/

namespace Handoff.Numeric

lemma lt_two_zpow_floorLog2 (n : Nat) {d : Nat} (hd : d ≠ 0) :
    (n / d : ℚ) < 2 ^ (floorLog2 n d + 1) := by
  have hd' : (0 : ℚ) < d := by exact_mod_cast Nat.pos_of_ne_zero hd
  rw [div_lt_iff₀ hd']
  have hguess : (n : ℚ) < 2 ^ ((n.log2 : Int) - d.log2 + 1) * d := by
    have hhigh : (n : ℚ) < ((2 ^ (n.log2 + 1) : Nat) : ℚ) := by exact_mod_cast Nat.lt_log2_self
    have hlow : ((2 ^ d.log2 : Nat) : ℚ) ≤ d := by exact_mod_cast Nat.log2_self_le hd
    calc (n : ℚ) < ((2 ^ (n.log2 + 1) : Nat) : ℚ) := hhigh
      _ = (2 : ℚ) ^ ((n.log2 : Int) - d.log2 + 1) * ((2 ^ d.log2 : Nat) : ℚ) := by
        push_cast
        rw [← zpow_natCast, ← zpow_natCast, ← zpow_add₀ (by norm_num)]
        congr 1
        push_cast
        ring
      _ ≤ (2 : ℚ) ^ ((n.log2 : Int) - d.log2 + 1) * d := by gcongr
  unfold floorLog2
  simp only
  generalize (n.log2 : Int) - d.log2 = guess at hguess
  cases guess with
  | ofNat k =>
    dsimp only
    split
    · exact hguess
    · rename_i hreached
      have hlt : (n : ℚ) < d * 2 ^ k := by exact_mod_cast not_le.1 (of_decide_eq_false (by simpa using hreached))
      rw [sub_add_cancel, Int.ofNat_eq_natCast, zpow_natCast]
      linarith
  | negSucc k =>
    dsimp only
    split
    · exact hguess
    · rename_i hreached
      have hlt : (n : ℚ) * 2 ^ (k + 1) < d := by
        exact_mod_cast not_le.1 (of_decide_eq_false (by simpa using hreached))
      rw [sub_add_cancel, zpow_negSucc, inv_mul_eq_div, lt_div_iff₀ (by positivity)]
      exact hlt

namespace Binary64

variable {q : ℚ}

/-- The largest double. -/
def largest : ℚ := (2 ^ 53 - 1) * 2 ^ 971

lemma largest_eq : largest = (2 ^ 54 - 2) * 2 ^ 970 := by
  rw [largest, pow_succ (2 : ℚ) 970]
  generalize (2 : ℚ) ^ 970 = unit
  ring

lemma largest_nonneg : 0 ≤ largest := by
  rw [largest_eq]
  exact mul_nonneg (by norm_num) (by positivity)

/-- Moderate numbers are within the range of doubles. -/
lemma le_largest (h : q ≤ 2 ^ 53) : q ≤ largest := by
  have hone : (1 : ℚ) ≤ 2 ^ 970 := one_le_pow₀ (by norm_num)
  rw [largest_eq]
  generalize (2 : ℚ) ^ 970 = unit at hone ⊢
  norm_num at h ⊢
  linarith

lemma overflowBound_eq : (overflowBound : ℚ) = (2 ^ 54 - 1) * 2 ^ 970 := by
  have h : overflowBound = (2 ^ 54 - 1) * 2 ^ 970 := by decide +kernel
  rw [h, Nat.cast_mul, Nat.cast_pow _ 970]
  norm_num

/-- The overflow lies half a spacing past the largest double. -/
lemma largest_add : largest + 2 ^ 970 = (overflowBound : ℚ) := by
  rw [overflowBound_eq, largest_eq]
  generalize (2 : ℚ) ^ 970 = unit
  ring

/-- From here on the spacing is at least one, and what lies on the grid is an integer times the spacing. -/
lemma exists_onGrid_eq_mul (q : ℚ) (k : Nat) : ∃ m : Int, onGrid q k = m * 2 ^ k := by
  refine ⟨nearestInt q.num (q.den * 2 ^ k), ?_⟩
  change onGrid q (.ofNat k) = _
  simp only [onGrid, Nat.pow_eq, Int.pow_eq]
  push_cast
  rfl

lemma abs_lt_gridExponent (q : ℚ) : |q| < 2 ^ (gridExponent q + 53) := by
  rw [abs_eq_natAbs_div]
  refine lt_of_lt_of_le (lt_two_zpow_floorLog2 _ q.den_nz) (zpow_le_zpow_right₀ (by norm_num) ?_)
  unfold gridExponent
  omega

lemma gridExponent_le (hq : q ≠ 0) (h : |q| < overflowBound) : gridExponent q ≤ 971 := by
  have hover : (overflowBound : ℚ) ≤ 2 ^ (1024 : Int) := by
    have hpower : (2 : ℚ) ^ (1024 : Int) = 2 ^ 54 * 2 ^ 970 := by
      rw [← pow_add]
      exact zpow_natCast 2 1024
    have hpos : (0 : ℚ) < 2 ^ 970 := by positivity
    rw [hpower, ← largest_add, largest_eq]
    generalize (2 : ℚ) ^ 970 = unit at hpos ⊢
    norm_num
    linarith
  have hlog : (2 : ℚ) ^ floorLog2 q.num.natAbs q.den < 2 ^ (1024 : Int) := by
    calc (2 : ℚ) ^ floorLog2 q.num.natAbs q.den ≤ q.num.natAbs / q.den :=
          two_zpow_floorLog2_le (by simpa using hq) q.den_nz
      _ = |q| := (abs_eq_natAbs_div q).symm
      _ < 2 ^ (1024 : Int) := h.trans_le hover
  have hlt := (zpow_lt_zpow_iff_right₀ (by norm_num : (1 : ℚ) < 2)).1 hlog
  unfold gridExponent
  omega

/-- In the topmost range the result is a multiple of the spacing; below it there is room. -/
lemma abs_onGrid_le_largest (hq : q ≠ 0) (h : |q| < overflowBound) :
    |onGrid q (gridExponent q)| ≤ largest := by
  have herror := abs_onGrid_sub_le q (gridExponent q)
  have htriangle := abs_add_le (onGrid q (gridExponent q) - q) q
  rw [sub_add_cancel] at htriangle
  rcases (gridExponent_le hq h).lt_or_eq with hbelow | htop
  · have hsize := abs_lt_gridExponent q
    rw [zpow_add₀ (by norm_num), show (2 : ℚ) ^ (53 : Int) = 2 ^ 53 from zpow_natCast 2 53] at hsize
    have hgrid : (2 : ℚ) ^ gridExponent q ≤ 2 ^ 970 := by
      rw [← zpow_natCast]
      exact zpow_le_zpow_right₀ (by norm_num) (by omega)
    have hpos : (0 : ℚ) < 2 ^ gridExponent q := by positivity
    rw [largest_eq]
    generalize (2 : ℚ) ^ gridExponent q = spacing at herror hsize hgrid hpos
    generalize (2 : ℚ) ^ 970 = unit at hgrid ⊢
    norm_num at hsize ⊢
    linarith
  · rw [htop] at herror htriangle ⊢
    obtain ⟨m, hm⟩ := exists_onGrid_eq_mul q 971
    have hvalue : onGrid q (971 : Int) = m * 2 ^ 971 := hm
    have hunit : (0 : ℚ) < 2 ^ 971 := by positivity
    have hhalf : (2 : ℚ) ^ (971 : Int) = 2 ^ 971 := zpow_natCast 2 971
    rw [hvalue, hhalf] at herror
    rw [hvalue, abs_mul, abs_of_pos hunit] at htriangle ⊢
    rw [← largest_add, largest] at h
    have hm53 : |m| < 2 ^ 53 := by
      have hdouble : (2 : ℚ) ^ 971 = 2 * 2 ^ 970 := by rw [pow_succ, mul_comm]
      have hlt : |(m : ℚ)| * 2 ^ 971 < 2 ^ 53 * 2 ^ 971 := by
        generalize (2 : ℚ) ^ 970 = unit at h hdouble
        generalize (2 : ℚ) ^ 971 = spacing at herror htriangle h hdouble ⊢
        norm_num at h ⊢
        linarith
      exact_mod_cast lt_of_mul_lt_mul_right hlt hunit.le
    have hm' : |(m : ℚ)| ≤ 2 ^ 53 - 1 := by
      have : |m| ≤ 2 ^ 53 - 1 := by omega
      exact_mod_cast this
    rw [largest]
    exact mul_le_mul_of_nonneg_right hm' hunit.le

/-- A value below the overflow becomes a double that is at most the largest one. -/
theorem isAtMost_largest_ofRat (h : |q| < overflowBound) : (ofRat q).IsAtMost largest := by
  unfold ofRat
  split
  · exact ⟨0, rfl, by rw [abs_zero]; exact largest_nonneg⟩
  rename_i hnum
  have hden : (0 : ℚ) < q.den := by exact_mod_cast q.den_pos
  rw [if_neg]
  · have hnear := abs_onGrid_le_largest (by simpa using hnum) h
    simp only
    split
    · exact ⟨0, rfl, by rw [abs_zero]; exact largest_nonneg⟩
    · exact ⟨_, rfl, hnear⟩
  · intro hover
    rw [abs_eq_natAbs_div, div_lt_iff₀ hden] at h
    have hover' : (overflowBound : ℚ) * q.den ≤ q.num.natAbs := by exact_mod_cast hover
    linarith

lemma largest_lt_overflowBound : largest + 1 < (overflowBound : ℚ) := by
  rw [← largest_add]
  exact add_lt_add_right (one_lt_pow₀ (by norm_num) (by norm_num)) largest

end Binary64

end Handoff.Numeric

namespace Handoff

open Numeric Binary64

/-- A number that is at most the largest double becomes a double like that. -/
lemma Number.IsAtMost.toBinary64_largest {bound : ℚ} {n : Number} (h : n.IsAtMost bound)
    (hbound : bound ≤ largest) : ∃ x, n.toBinary64 = .ok x ∧ x.IsAtMost largest := by
  cases n with
  | int k =>
    have hsize : |(k : ℚ)| ≤ bound := h
    have hover := largest_lt_overflowBound
    exact Number.toBinary64_int (isAtMost_largest_ofRat (by linarith))
  | double x => exact ⟨x, rfl, Binary64.IsAtMost.mono h hbound⟩

end Handoff
