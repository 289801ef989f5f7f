import Mathlib.Algebra.Order.Field.Basic
import Mathlib.Algebra.Order.Field.Power
import Mathlib.Data.Rat.Lemmas
import Mathlib.Tactic.FieldSimp
import Mathlib.Tactic.Linarith
import Mathlib.Tactic.NormNum
import Mathlib.Tactic.Ring
import Handoff.Data.Number

/-!
How large the results of double-precision arithmetic are.

Rounding to a double moves a value by at most half of it, so numbers of a moderate size stay finite
through the few operations that a colour or a length goes through.
-/

namespace Handoff.Numeric

/-! ### Rounding to integers -/

lemma abs_nearestInt_sub_le (n : Int) {d : Nat} (hd : 0 < d) :
    |(nearestInt n d : ℚ) - n / d| ≤ 1 / 2 := by
  have hd' : (0 : ℚ) < d := by exact_mod_cast hd
  obtain ⟨h1, h2⟩ := nearestInt_error n d hd
  have h1' : 2 * ((nearestInt n d : ℚ) * d) ≤ 2 * n + d := by exact_mod_cast h1
  have h2' : 2 * (n : ℚ) ≤ 2 * ((nearestInt n d : ℚ) * d) + d := by exact_mod_cast h2
  have hn : (n : ℚ) = n / d * d := by field_simp
  rw [abs_le]
  constructor
  · by_contra hlt
    have hmul := mul_lt_mul_of_pos_right (not_le.1 hlt) hd'
    linarith
  · by_contra hlt
    have hmul := mul_lt_mul_of_pos_right (not_le.1 hlt) hd'
    linarith

/-! ### Rounding to doubles -/

namespace Binary64

/-- The double is finite and at most so large. -/
def IsAtMost (bound : ℚ) (x : Binary64) : Prop := ∃ q, x.toRat? = some q ∧ |q| ≤ bound

variable {q a b : ℚ} {x y : Binary64}

lemma IsAtMost.mono (h : x.IsAtMost a) (hab : a ≤ b) : x.IsAtMost b := by
  obtain ⟨q, hq, hle⟩ := h
  exact ⟨q, hq, hle.trans hab⟩

lemma two_zpow_floorLog2_le {n d : Nat} (hn : n ≠ 0) (hd : d ≠ 0) :
    (2 : ℚ) ^ floorLog2 n d ≤ n / d := by
  have hd' : (0 : ℚ) < d := by exact_mod_cast Nat.pos_of_ne_zero hd
  rw [le_div_iff₀ hd']
  have hguess : (2 : ℚ) ^ ((n.log2 : Int) - d.log2 - 1) * d ≤ n := by
    have hlow : ((2 ^ n.log2 : Nat) : ℚ) ≤ n := by exact_mod_cast Nat.log2_self_le hn
    have hhigh : (d : ℚ) ≤ ((2 ^ (d.log2 + 1) : Nat) : ℚ) := by
      exact_mod_cast Nat.lt_log2_self.le
    calc (2 : ℚ) ^ ((n.log2 : Int) - d.log2 - 1) * d
        ≤ (2 : ℚ) ^ ((n.log2 : Int) - d.log2 - 1) * ((2 ^ (d.log2 + 1) : Nat) : ℚ) := by gcongr
      _ = ((2 ^ n.log2 : Nat) : ℚ) := by
        push_cast
        rw [← zpow_natCast, ← zpow_natCast, ← zpow_add₀ (by norm_num)]
        congr 1
        push_cast
        ring
      _ ≤ n := hlow
  unfold floorLog2
  simp only
  generalize (n.log2 : Int) - d.log2 = guess at hguess
  cases guess with
  | ofNat k =>
    dsimp only
    split
    · rename_i hreached
      have hle : (d : ℚ) * 2 ^ k ≤ n := by exact_mod_cast of_decide_eq_true hreached
      rw [Int.ofNat_eq_natCast, zpow_natCast]
      linarith
    · exact hguess
  | negSucc k =>
    dsimp only
    split
    · rename_i hreached
      have hle : (d : ℚ) ≤ n * 2 ^ (k + 1) := by exact_mod_cast of_decide_eq_true hreached
      rw [zpow_negSucc]
      field_simp
      linarith
    · exact hguess

lemma abs_onGrid_sub_le (q : ℚ) (e : Int) : |onGrid q e - q| ≤ 2 ^ e / 2 := by
  have hden : (q.den : ℚ) ≠ 0 := by exact_mod_cast q.den_nz
  match e with
  | .ofNat k =>
    have hk : (0 : ℚ) < 2 ^ k := by positivity
    have herror := abs_nearestInt_sub_le q.num (d := q.den * 2 ^ k) (Nat.mul_pos q.den_pos (by positivity))
    have hvalue : onGrid q (.ofNat k) - q =
        ((nearestInt q.num (q.den * 2 ^ k) : ℚ) - q.num / (q.den * 2 ^ k : Nat)) * 2 ^ k := by
      calc onGrid q (.ofNat k) - q = onGrid q (.ofNat k) - q.num / q.den := by rw [Rat.num_div_den]
        _ = _ := by
          simp only [onGrid, Nat.pow_eq, Int.pow_eq]
          push_cast
          field_simp
    rw [hvalue, abs_mul, abs_of_pos hk, Int.ofNat_eq_natCast, zpow_natCast]
    calc _ ≤ 1 / 2 * (2 : ℚ) ^ k := by gcongr
      _ = 2 ^ k / 2 := by ring
  | .negSucc k =>
    have hk : (0 : ℚ) < 2 ^ (k + 1) := by positivity
    have herror := abs_nearestInt_sub_le (q.num * 2 ^ (k + 1)) q.den_pos
    have hvalue : onGrid q (.negSucc k) - q =
        ((nearestInt (q.num * 2 ^ (k + 1)) q.den : ℚ) -
          (q.num * 2 ^ (k + 1) : Int) / q.den) / 2 ^ (k + 1) := by
      calc onGrid q (.negSucc k) - q = onGrid q (.negSucc k) - q.num / q.den := by
            rw [Rat.num_div_den]
        _ = _ := by
          simp only [onGrid, Nat.pow_eq, Int.pow_eq, Rat.mkRat_eq_div]
          push_cast
          field_simp
    rw [hvalue, abs_div, abs_of_pos hk, zpow_negSucc]
    calc _ ≤ 1 / 2 / (2 : ℚ) ^ (k + 1) := by gcongr
      _ = ((2 : ℚ) ^ (k + 1))⁻¹ / 2 := by ring

lemma abs_eq_natAbs_div (q : ℚ) : |q| = (q.num.natAbs : ℚ) / q.den := by
  have hden : (0 : ℚ) < q.den := by exact_mod_cast q.den_pos
  calc |q| = |(q.num : ℚ) / q.den| := by rw [Rat.num_div_den]
    _ = _ := by rw [abs_div, abs_of_pos hden, Nat.cast_natAbs, Int.cast_abs]

/-- A value below the overflow becomes a finite double, at most half as large again. -/
theorem isAtMost_ofRat (h : |q| ≤ b) (hb : b < overflowBound) :
    (ofRat q).IsAtMost (3 / 2 * b + 1) := by
  have hb0 : 0 ≤ b := (abs_nonneg q).trans h
  unfold ofRat
  split
  · exact ⟨0, rfl, by rw [abs_zero]; linarith⟩
  rename_i hnum
  have hden : (0 : ℚ) < q.den := by exact_mod_cast q.den_pos
  have habs := abs_eq_natAbs_div q
  split
  · rename_i hover
    have hover' : (overflowBound : ℚ) * q.den ≤ q.num.natAbs := by exact_mod_cast hover
    rw [← le_div_iff₀ hden, ← habs] at hover'
    linarith
  have hnear : |onGrid q (gridExponent q)| ≤ 3 / 2 * b + 1 := by
    have herror := abs_onGrid_sub_le q (gridExponent q)
    have hgrid : (2 : ℚ) ^ gridExponent q ≤ |q| + 1 := by
      unfold gridExponent
      rcases le_total (floorLog2 q.num.natAbs q.den - 52) (-1074) with hle | hle
      · rw [max_eq_right hle]
        calc (2 : ℚ) ^ (-1074 : Int) ≤ 2 ^ (0 : Int) := zpow_le_zpow_right₀ (by norm_num) (by norm_num)
          _ ≤ |q| + 1 := by rw [zpow_zero]; linarith [abs_nonneg q]
      · rw [max_eq_left hle, habs]
        calc (2 : ℚ) ^ (floorLog2 q.num.natAbs q.den - 52)
            ≤ 2 ^ floorLog2 q.num.natAbs q.den := zpow_le_zpow_right₀ (by norm_num) (by omega)
          _ ≤ q.num.natAbs / q.den := two_zpow_floorLog2_le (by simpa using hnum) q.den_nz
          _ ≤ _ := by linarith
    have htriangle := abs_add_le (onGrid q (gridExponent q) - q) q
    rw [sub_add_cancel] at htriangle
    linarith
  simp only
  split
  · exact ⟨0, rfl, by rw [abs_zero]; linarith⟩
  · exact ⟨_, rfl, hnear⟩

lemma IsAtMost.mul (hx : x.IsAtMost a) (hy : y.IsAtMost b) (hab : a * b < overflowBound) :
    (x.mul y).IsAtMost (3 / 2 * (a * b) + 1) := by
  obtain ⟨p, hp, hpa⟩ := hx
  obtain ⟨q, hq, hqb⟩ := hy
  have hproduct : (ofRat (p * q)).IsAtMost (3 / 2 * (a * b) + 1) := by
    refine isAtMost_ofRat ?_ hab
    rw [abs_mul]
    exact mul_le_mul hpa hqb (abs_nonneg q) ((abs_nonneg p).trans hpa)
  have hzero : IsAtMost (3 / 2 * (a * b) + 1) .negativeZero := by
    obtain ⟨w, -, hw⟩ := hproduct
    exact ⟨0, rfl, by rw [abs_zero]; exact (abs_nonneg w).trans hw⟩
  have hvalue : x.mul y = ofRat (p * q) ∨ x.mul y = .negativeZero := by
    cases x <;> cases y <;> cases hp <;> cases hq <;> exact (ite_eq_or_eq _ _ _).symm
  rcases hvalue with hv | hv
  · rw [hv]; exact hproduct
  · rw [hv]; exact hzero

lemma IsAtMost.toHundredths (h : x.IsAtMost b) (hb : b + 1 < overflowBound) :
    ∃ c, x.toHundredths.IsAtMost c := by
  obtain ⟨q, hq, hqb⟩ := h
  cases x with
  | finite value =>
    cases hq
    refine ⟨_, isAtMost_ofRat (b := b + 1) ?_ hb⟩
    have herror := abs_nearestInt_sub_le (q.num * 100) q.den_pos
    have hvalue : mkRat (nearestInt (q.num * 100) q.den) 100 =
        ((nearestInt (q.num * 100) q.den : ℚ) - (q.num * 100 : Int) / q.den) / 100 + q := by
      have hden : (q.den : ℚ) ≠ 0 := by exact_mod_cast q.den_nz
      have hq : (q.num : ℚ) = q * q.den := by rw [mul_comm, Rat.den_mul_eq_num]
      rw [Rat.mkRat_eq_div]
      push_cast
      rw [hq]
      field_simp
      ring
    rw [hvalue]
    refine (abs_add_le _ _).trans ?_
    rw [abs_div, abs_of_pos (by norm_num : (0 : ℚ) < 100)]
    linarith
  | negativeZero => exact ⟨b, q, hq, hqb⟩
  | infinite negative => cases hq
  | nan => cases hq

lemma IsAtMost.truncate (h : x.IsAtMost b) : ∃ n, x.truncate = .ok n := by
  obtain ⟨q, hq, -⟩ := h
  cases x <;> cases hq
  · exact ⟨_, rfl⟩
  · exact ⟨_, rfl⟩

lemma IsAtMost.round (h : x.IsAtMost b) : ∃ n, x.round = .ok n ∧ |(n : ℚ)| ≤ b + 1 := by
  obtain ⟨q, hq, hqb⟩ := h
  cases x with
  | finite value =>
    cases hq
    refine ⟨_, rfl, ?_⟩
    have herror := abs_nearestInt_sub_le q.num q.den_pos
    rw [Rat.num_div_den] at herror
    have htriangle := abs_add_le ((nearestInt q.num q.den : ℚ) - q) q
    rw [sub_add_cancel] at htriangle
    linarith
  | negativeZero => exact ⟨0, rfl, by rw [Int.cast_zero, abs_zero]; linarith [abs_nonneg q]⟩
  | infinite negative => cases hq
  | nan => cases hq

end Binary64

end Handoff.Numeric

namespace Handoff

open Numeric

/-! ### Numbers -/

namespace Number

/-- The number is finite and at most so large. -/
def IsAtMost (bound : ℚ) : Number → Prop
  | int n => |(n : ℚ)| ≤ bound
  | double x => x.IsAtMost bound

variable {a b : ℚ} {m n : Number}

lemma IsAtMost.nonneg (h : n.IsAtMost a) : 0 ≤ a := by
  cases n with
  | int k => exact (abs_nonneg _).trans h
  | double x =>
    obtain ⟨q, -, hq⟩ := h
    exact (abs_nonneg q).trans hq

/-- An integer whose rounding is finite becomes a double. -/
lemma toBinary64_int {k : Int} (h : (Binary64.ofRat k).IsAtMost a) :
    ∃ x, (int k).toBinary64 = .ok x ∧ x.IsAtMost a := by
  obtain ⟨q, hq, hle⟩ := h
  simp only [Number.toBinary64, Binary64.ofInt?]
  cases hx : Binary64.ofRat k with
  | infinite negative =>
    rw [hx] at hq
    cases hq
  | finite value => exact ⟨_, rfl, q, by rw [← hx, hq], hle⟩
  | negativeZero => exact ⟨_, rfl, q, by rw [← hx, hq], hle⟩
  | nan => exact ⟨_, rfl, q, by rw [← hx, hq], hle⟩

lemma IsAtMost.toBinary64 (h : n.IsAtMost a) (ha : a < Binary64.overflowBound) :
    ∃ x, n.toBinary64 = .ok x ∧ x.IsAtMost (3 / 2 * a + 1) := by
  have ha0 := h.nonneg
  cases n with
  | int k => exact toBinary64_int (Binary64.isAtMost_ofRat h ha)
  | double x => exact ⟨x, rfl, Binary64.IsAtMost.mono h (by linarith)⟩

/-- What a product of two numbers is at most: each may be rounded, and the product again. -/
def productBound (a b : ℚ) : ℚ := 3 / 2 * ((3 / 2 * a + 1) * (3 / 2 * b + 1)) + 1

lemma IsAtMost.mul (hm : m.IsAtMost a) (hn : n.IsAtMost b)
    (h : productBound a b < Binary64.overflowBound) :
    ∃ k, m.mul n = .ok k ∧ k.IsAtMost (productBound a b) := by
  have ha0 := hm.nonneg
  have hb0 := hn.nonneg
  have hab : 0 ≤ a * b := mul_nonneg ha0 hb0
  have hproduct : productBound a b = 3 / 2 * ((3 / 2 * a + 1) * (3 / 2 * b + 1)) + 1 := rfl
  have hdoubles : ∃ k, (do return double ((← m.toBinary64).mul (← n.toBinary64)) : Except Fault Number) =
      .ok k ∧ k.IsAtMost (productBound a b) := by
    obtain ⟨x, hx, hxa⟩ := hm.toBinary64 (by linarith)
    obtain ⟨y, hy, hyb⟩ := hn.toBinary64 (by linarith)
    rw [hx, hy]
    exact ⟨_, rfl, hxa.mul hyb (by linarith)⟩
  cases m with
  | int i =>
    cases n with
    | int j =>
      refine ⟨_, rfl, ?_⟩
      have hle : |(i : ℚ)| * |(j : ℚ)| ≤ a * b := mul_le_mul hm hn (abs_nonneg _) ha0
      change |((i * j : Int) : ℚ)| ≤ productBound a b
      rw [Int.cast_mul, abs_mul]
      linarith
    | double y => exact hdoubles
  | double x => cases n <;> exact hdoubles

lemma IsAtMost.round (h : n.IsAtMost a) : ∃ k, n.round = .ok k ∧ |(k : ℚ)| ≤ a + 1 := by
  cases n with
  | int k => exact ⟨k, rfl, le_trans h (by linarith)⟩
  | double x => exact Binary64.IsAtMost.round h

end Number

end Handoff
