/-!
Rounding a quotient of integers to the nearest integer, a half going to the even neighbour.

Every rounding of the library (colour channels, pixel sizes, binary and decimal grids) is this
one function applied to a scaled quotient.
-/

namespace Handoff.Numeric

/-- The integer nearest to `n / d`; a half goes to the even neighbour. -/
def nearestInt (n : Int) (d : Nat) : Int :=
  let below := n / d
  let rest := n % d
  if 2 * rest < d then below
  else if (d : Int) < 2 * rest then below + 1
  else if below % 2 = 0 then below
  else below + 1

/-- A whole number is its own nearest integer. -/
@[simp] theorem nearestInt_one (n : Int) : nearestInt n 1 = n := by
  simp [nearestInt]

/-- The nearest integer is at most half a unit away. -/
theorem nearestInt_error (n : Int) (d : Nat) (hd : 0 < d) :
    2 * (nearestInt n d * d) ≤ 2 * n + d ∧ 2 * n ≤ 2 * (nearestInt n d * d) + d := by
  have hd' : (0 : Int) < d := by exact_mod_cast hd
  have hr0 : 0 ≤ n % d := Int.emod_nonneg _ (by omega)
  have hr1 : n % d < d := Int.emod_lt_of_pos _ hd'
  have hn : (d : Int) * (n / d) + n % d = n := Int.mul_ediv_add_emod n d
  have hc : n / (d : Int) * d = d * (n / d) := Int.mul_comm _ _
  have hc1 : (n / (d : Int) + 1) * d = d * (n / d) + d := by
    rw [Int.add_mul, Int.one_mul, Int.mul_comm]
  simp only [nearestInt]
  split
  · rw [hc]; omega
  · split
    · rw [hc1]; omega
    · split
      · rw [hc]; omega
      · rw [hc1]; omega

/-- `⌊log₂ (n / d)⌋` for positive `n` and `d`. -/
def floorLog2 (n d : Nat) : Int :=
  let guess : Int := (n.log2 : Int) - d.log2
  let reached : Bool := match guess with
    | .ofNat k => d * Nat.pow 2 k ≤ n
    | .negSucc k => d ≤ n * Nat.pow 2 (k + 1)
  if reached then guess else guess - 1

/-- The number of decimal digits of `n`; zero has one. -/
def digitCount (n : Nat) : Nat := (Nat.toDigits 10 n).length

/-- `⌊log₁₀ (n / d)⌋` for positive `n` and `d`. -/
def floorLog10 (n d : Nat) : Int :=
  let guess : Int := (digitCount n : Int) - digitCount d
  let reached : Bool := match guess with
    | .ofNat k => d * Nat.pow 10 k ≤ n
    | .negSucc k => d ≤ n * Nat.pow 10 (k + 1)
  if reached then guess else guess - 1

end Handoff.Numeric
