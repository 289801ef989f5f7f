import Handoff.Numeric.Binary64

/-!
Decimal numerals for binary numbers.

`shortest` finds the fewest digits that read back as the same double, and among those the digits
nearest to it; `significant` rounds to a number of digits. `Spelling` holds the decisions of a
number format: where the positional form ends and how a whole number is marked.
-/

namespace Handoff.Numeric

/-- A decimal numeral `d₁.d₂d₃… * 10 ^ exponent`. -/
structure Decimal where
  negative : Bool
  digits : List Char
  exponent : Int

namespace Decimal

/-- Digits without the zeros at the end; a zero keeps one digit. -/
def stripZeros (digits : List Char) : List Char :=
  match (digits.reverse.dropWhile (· = '0')).reverse with
  | [] => ['0']
  | rest => rest

/-- The numeral of `coefficient * 10 ^ scale`, without zeros at the end. -/
def ofScaled (negative : Bool) (coefficient : Nat) (scale : Int) : Decimal :=
  let digits := Nat.toDigits 10 coefficient
  { negative, digits := stripZeros digits,
    exponent := if coefficient = 0 then 0 else scale + (digits.length - 1 : Nat) }

/-- `value * 10 ^ shift` as a numerator and a denominator. -/
def shifted (value : Rat) (shift : Int) : Int × Nat :=
  match shift with
  | .ofNat k => (value.num * Int.pow 10 k, value.den)
  | .negSucc k => (value.num, value.den * Nat.pow 10 (k + 1))

/-- The double that `coefficient * 10 ^ scale` reads back as. -/
def readsBack (coefficient : Nat) (scale : Int) : Binary64 :=
  .ofDecimal false coefficient scale

/-- The numeral of a positive value with at most `count` significant digits, ties to even. -/
def significant (negative : Bool) (value : Rat) (count : Nat) : Decimal :=
  let scale := floorLog10 value.num.natAbs value.den - (count - 1 : Nat)
  let (n, d) := shifted value (-scale)
  ofScaled negative (nearestInt n d).toNat scale

/-- With `count` digits, then `count + 1`, …: the first grid on which a neighbour of the value
reads back as the value, the nearer neighbour first. -/
def shortestFrom (negative : Bool) (value : Rat) (count : Nat) : Nat → Decimal
  | 0 => significant negative value count
  | more + 1 =>
    let scale := floorLog10 value.num.natAbs value.den - (count - 1 : Nat)
    let (n, d) := shifted value (-scale)
    let near := (nearestInt n d).toNat
    let below := (n / d).toNat
    let far := if near = below then below + 1 else below
    if readsBack near scale = .finite value then ofScaled negative near scale
    else if readsBack far scale = .finite value then ofScaled negative far scale
    else shortestFrom negative value (count + 1) more

/-- The fewest digits that read back as the same positive double. -/
def shortest (negative : Bool) (value : Rat) : Decimal :=
  shortestFrom negative value 1 16

/-- What a number format decides beyond the digits. -/
structure Spelling where
  /-- The least decimal exponent written positionally. -/
  leastPositional : Int
  /-- The least decimal exponent written with an exponent again. -/
  firstScientific : Int
  /-- What follows a positional numeral that has no point. -/
  wholeMark : String

/-- The exponent part: a sign and at least two digits. -/
def exponentText (exponent : Int) : String :=
  let digits := String.ofList (Nat.toDigits 10 exponent.natAbs)
  "e" ++ (if exponent < 0 then "-" else "+") ++ (if digits.length < 2 then "0" ++ digits else digits)

/-- The digits with a point after the first `whole` of them, zeros filled in. -/
def positional (spelling : Spelling) (digits : List Char) (exponent : Int) : String :=
  match exponent with
  | .ofNat k =>
    let whole := k + 1
    if digits.length ≤ whole then
      String.ofList (digits ++ List.replicate (whole - digits.length) '0') ++ spelling.wholeMark
    else String.ofList (digits.take whole) ++ "." ++ String.ofList (digits.drop whole)
  | .negSucc k => "0." ++ String.ofList (List.replicate k '0' ++ digits)

/-- One digit, a point, the others, and the exponent. -/
def scientific (digits : List Char) (exponent : Int) : String :=
  match digits with
  | [] => ""
  | [d] => String.ofList [d] ++ exponentText exponent
  | d :: rest => String.ofList [d] ++ "." ++ String.ofList rest ++ exponentText exponent

/-- The text of a numeral in a format. -/
def write (spelling : Spelling) (numeral : Decimal) : String :=
  (if numeral.negative then "-" else "") ++
    if spelling.leastPositional ≤ numeral.exponent && numeral.exponent < spelling.firstScientific then
      positional spelling numeral.digits numeral.exponent
    else scientific numeral.digits numeral.exponent

end Decimal

namespace Binary64

/-- The text of a double in a format, from the numeral chosen for its positive part. -/
def write (spelling : Decimal.Spelling) (numeral : Bool → Rat → Decimal) : Binary64 → String
  | .finite value =>
    if value.num = 0 then "0" ++ spelling.wholeMark
    else Decimal.write spelling
      (numeral (decide (value.num < 0)) (mkRat value.num.natAbs value.den))
  | .negativeZero => "-0" ++ spelling.wholeMark
  | .infinite negative => if negative then "-inf" else "inf"
  | .nan => "nan"

/-- Plain values are written positionally from `1e-4` to below `1e16`, and a whole one ends in
`.0`. -/
def plainSpelling : Decimal.Spelling := ⟨-4, 16, ".0"⟩

/-- The shortest text that reads back as the same double. -/
def toText (x : Binary64) : String := x.write plainSpelling Decimal.shortest

end Binary64

end Handoff.Numeric
