import Handoff.Numeric.Rounding

/-!
Double-precision numbers by their exact values.

A finite number is the rational it stands for; arithmetic is exact and then rounded to the
nearest number of the format (`ofRat`), ties going to the even mantissa. Values of `Binary64` made
by `ofRat` and `ofDecimal` are numbers of the format.
-/

namespace Handoff.Numeric

/-- A double: a finite value, the negative zero, an infinity, or no number. -/
inductive Binary64 where
  | finite (value : Rat)
  | negativeZero
  | infinite (negative : Bool)
  | nan
deriving DecidableEq

namespace Binary64

/-- The spacing of doubles around a non-zero value is `2 ^ gridExponent`: 53 significant bits, and
nothing finer than the smallest positive double. -/
def gridExponent (value : Rat) : Int :=
  max (floorLog2 value.num.natAbs value.den - 52) (-1074)

/-- The multiple of `2 ^ e` nearest to the value. -/
def onGrid (value : Rat) (e : Int) : Rat :=
  match e with
  | .ofNat k => ((nearestInt value.num (value.den * Nat.pow 2 k) * Int.pow 2 k : Int) : Rat)
  | .negSucc k => mkRat (nearestInt (value.num * Int.pow 2 (k + 1)) value.den) (Nat.pow 2 (k + 1))

/-- Values from here on are nearer to the next power of two than to the greatest double. -/
def overflowBound : Nat := Nat.pow 2 1024 - Nat.pow 2 970

/-- The double nearest to a rational; ties go to the even mantissa. -/
def ofRat (value : Rat) : Binary64 :=
  if value.num = 0 then .finite 0
  else if overflowBound * value.den ≤ value.num.natAbs then .infinite (decide (value.num < 0))
  else
    let near := onGrid value (gridExponent value)
    if near.num = 0 && decide (value.num < 0) then .negativeZero else .finite near

/-- The double nearest to an integer, or nothing when the integer is beyond the finite doubles. -/
def ofInt? (n : Int) : Option Binary64 :=
  match ofRat n with
  | .infinite _ => none
  | x => some x

/-- The same number with the opposite sign. -/
def neg : Binary64 → Binary64
  | .finite value => if value.num = 0 then .negativeZero else .finite (-value)
  | .negativeZero => .finite 0
  | .infinite negative => .infinite (!negative)
  | .nan => .nan

/-- The double nearest to `± coefficient * 10 ^ exponent`. Far out of range the digits do not
matter, so no huge power is formed. -/
def ofDecimal (negative : Bool) (coefficient : Nat) (exponent : Int) : Binary64 :=
  let size : Int := digitCount coefficient + exponent
  let magnitude :=
    if coefficient = 0 then .finite 0
    else if 400 < size then .infinite false
    else if size < -400 then .finite 0
    else match exponent with
      | .ofNat k => ofRat ((coefficient * Nat.pow 10 k : Nat) : Rat)
      | .negSucc k => ofRat (mkRat coefficient (Nat.pow 10 (k + 1)))
  if negative then neg magnitude else magnitude

/-- The exact value of a finite double. -/
def toRat? : Binary64 → Option Rat
  | .finite value => some value
  | .negativeZero => some 0
  | .infinite _ => none
  | .nan => none

/-- Whether the sign is negative. -/
def isNegative : Binary64 → Bool
  | .finite value => value.num < 0
  | .negativeZero => true
  | .infinite negative => negative
  | .nan => false

/-- Whether the number is zero of either sign. -/
def isZero (x : Binary64) : Bool := x.toRat? == some 0

/-- The double nearest to the exact product. -/
def mul (x y : Binary64) : Binary64 :=
  let negative := x.isNegative != y.isNegative
  match x, y with
  | .nan, _ => .nan
  | _, .nan => .nan
  | .infinite _, y => if y.isZero then .nan else .infinite negative
  | x, .infinite _ => if x.isZero then .nan else .infinite negative
  | x, y =>
    let product := ofRat (x.toRat?.getD 0 * y.toRat?.getD 0)
    if product = .finite 0 && negative then .negativeZero else product

/-- Whether the double lies below an integer; nothing holds of `nan`. -/
def ltInt (x : Binary64) (n : Int) : Bool :=
  match x with
  | .finite value => decide (value < n)
  | .negativeZero => decide (0 < n)
  | .infinite negative => negative
  | .nan => false

/-- Whether an integer is at most the double; nothing holds of `nan`. -/
def intLe (n : Int) (x : Binary64) : Bool :=
  match x with
  | .finite value => decide ((n : Rat) ≤ value)
  | .negativeZero => decide (n ≤ 0)
  | .infinite negative => !negative
  | .nan => false

/-- The double nearest to the value rounded to hundredths. Both roundings take ties to even; the
sign of a zero result is not kept. -/
def toHundredths : Binary64 → Binary64
  | .finite value => ofRat (mkRat (nearestInt (value.num * 100) value.den) 100)
  | x => x

end Binary64

end Handoff.Numeric
