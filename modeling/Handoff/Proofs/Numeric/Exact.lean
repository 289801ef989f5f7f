import Handoff.Proofs.Numeric.Magnitude

/-!
Roundings that change nothing.

A quotient that is an integer is its own nearest integer. So a multiple of the spacing of doubles is a
double, as long as it has no more than 53 bits, and hundredths that are doubles stay as they are.
-/

namespace Handoff.Numeric

lemma nearestInt_mul (m : Int) {d : Nat} (hd : 0 < d) : nearestInt (m * d) d = m := by
  have hd' : (d : Int) ≠ 0 := by omega
  have hrest : m * (d : Int) % d = 0 := Int.mul_emod_left m d
  simp only [nearestInt, Int.mul_ediv_cancel m hd', hrest]
  rw [if_pos (by omega)]

/-- A rational is the integer nearest to its quotient when it is an integer. -/
lemma nearestInt_of_eq {n m : Int} {d : Nat} (hd : 0 < d) (h : (n : ℚ) = m * d) :
    nearestInt n d = m := by
  have hn : n = m * d := by exact_mod_cast h
  rw [hn, nearestInt_mul m hd]

namespace Binary64

variable {q : ℚ} {m e g : Int}

/-- A multiple of the spacing lies on the grid. -/
lemma onGrid_of_eq_mul (h : q = m * 2 ^ g) : onGrid q g = q := by
  have hden : (q.den : ℚ) ≠ 0 := by exact_mod_cast q.den_nz
  have hnum : (q.num : ℚ) = q * q.den := by rw [mul_comm, Rat.den_mul_eq_num]
  cases g with
  | ofNat k =>
    rw [Int.ofNat_eq_natCast, zpow_natCast] at h
    have hnear : nearestInt q.num (q.den * 2 ^ k) = m := by
      refine nearestInt_of_eq (Nat.mul_pos q.den_pos (by positivity)) ?_
      rw [hnum, h]
      push_cast
      ring
    simp only [onGrid, Nat.pow_eq, Int.pow_eq, hnear]
    rw [h]
    push_cast
    ring
  | negSucc k =>
    rw [zpow_negSucc] at h
    have hnear : nearestInt (q.num * 2 ^ (k + 1)) q.den = m := by
      refine nearestInt_of_eq q.den_pos ?_
      push_cast
      rw [hnum, h]
      field_simp
    simp only [onGrid, Nat.pow_eq, Int.pow_eq, hnear, Rat.mkRat_eq_div]
    rw [h]
    push_cast
    field_simp

/-- A multiple of `2 ^ e` below `2 ^ (e + 53)` is a double. -/
theorem ofRat_eq_finite (h : q = m * 2 ^ e) (he : -1074 ≤ e) (hsmall : |q| < 2 ^ (e + 53))
    (hover : |q| < overflowBound) : ofRat q = .finite q := by
  unfold ofRat
  split
  · rename_i hnum
    rw [Rat.num_eq_zero.1 hnum]
  rename_i hnum
  have hden : (0 : ℚ) < q.den := by exact_mod_cast q.den_pos
  rw [if_neg]
  · have hgrid : gridExponent q ≤ e := by
      have hlog : (2 : ℚ) ^ floorLog2 q.num.natAbs q.den < 2 ^ (e + 53) := by
        refine lt_of_le_of_lt (two_zpow_floorLog2_le (by simpa using hnum) q.den_nz) ?_
        rwa [← abs_eq_natAbs_div]
      have hlt := (zpow_lt_zpow_iff_right₀ (by norm_num : (1 : ℚ) < 2)).1 hlog
      unfold gridExponent
      omega
    have hmultiple : q = ((m * 2 ^ (e - gridExponent q).toNat : Int) : ℚ) * 2 ^ gridExponent q := by
      push_cast
      rw [mul_assoc, ← zpow_natCast, ← zpow_add₀ (by norm_num : (2 : ℚ) ≠ 0),
        Int.toNat_of_nonneg (by omega), sub_add_cancel]
      exact h
    rw [onGrid_of_eq_mul hmultiple]
    simp [hnum]
  · intro hle
    rw [abs_eq_natAbs_div, div_lt_iff₀ hden] at hover
    have hle' : (overflowBound : ℚ) * q.den ≤ q.num.natAbs := by exact_mod_cast hle
    linarith

/-- A double with two decimals at most stays as it is. -/
theorem toHundredths_eq_self (h : q * 100 = m) (hq : ofRat q = .finite q) :
    (finite q).toHundredths = .finite q := by
  have hnum : (q.num : ℚ) = q * q.den := by rw [mul_comm, Rat.den_mul_eq_num]
  have hnear : nearestInt (q.num * 100) q.den = m := by
    refine nearestInt_of_eq q.den_pos ?_
    push_cast
    rw [hnum, ← h]
    ring
  rw [toHundredths, hnear, Rat.mkRat_eq_div, ← h]
  push_cast
  rw [mul_div_cancel_right₀ q (by norm_num), hq]

end Binary64

end Handoff.Numeric
