import Handoff.Data.Value
import Handoff.Text.Blank
import Handoff.Text.Digit

/-!
Arithmetic on the numbers of the file format.

Integers stay exact among themselves and become doubles beside a double; a truth value is 0 or 1.
Reading a number also takes texts that spell one.
-/

namespace Handoff

open Numeric

/-- An integer or a double. -/
inductive Number where
  | int (n : Int)
  | double (x : Binary64)
deriving DecidableEq

namespace Number

/-- The nearest double; an integer beyond the doubles is a fault. -/
def toBinary64 : Number → Except Fault Binary64
  | int n =>
    match Binary64.ofInt? n with
    | some x => .ok x
    | none => .error .integerTooLarge
  | double x => .ok x

/-- The product: exact for two integers, else the product of the doubles. -/
def mul : Number → Number → Except Fault Number
  | int a, int b => .ok (int (a * b))
  | a, b => do return double ((← a.toBinary64).mul (← b.toBinary64))

/-- Whether the number is below an integer. -/
def ltInt (bound : Int) : Number → Bool
  | int n => n < bound
  | double x => x.ltInt bound

/-- Whether the number is at least an integer. -/
def intLe (bound : Int) : Number → Bool
  | int n => bound ≤ n
  | double x => Binary64.intLe bound x

end Number

namespace Numeric.Binary64

/-- The integer that a rounding of the exact value gives. -/
def toIntBy (rounding : Rat → Int) : Binary64 → Except Fault Int
  | .finite value => .ok (rounding value)
  | .negativeZero => .ok 0
  | .infinite _ => .error .infinityToInteger
  | .nan => .error .nanToInteger

/-- The nearest integer, a half going to the even neighbour. -/
def round (x : Binary64) : Except Fault Int := x.toIntBy fun value => nearestInt value.num value.den

/-- The integer part, toward zero. -/
def truncate (x : Binary64) : Except Fault Int := x.toIntBy fun value => value.num.tdiv value.den

end Numeric.Binary64

namespace Number

/-- The nearest integer, a half going to the even neighbour. -/
def round : Number → Except Fault Int
  | int n => .ok n
  | double x => x.round

/-- The integer part, toward zero. -/
def truncate : Number → Except Fault Int
  | int n => .ok n
  | double x => x.truncate

end Number

/-! ## Repetition -/

/-- What can be repeated: a text or a list, with its length. -/
inductive Repeatable where
  | text (length : Nat)
  | list (length : Nat)

namespace Repeatable

/-- The greatest count and length. -/
def mostItems : Nat := Nat.pow 2 63 - 1

/-- The bytes for which there is room. -/
def room : Nat := Nat.pow 2 36

/-- The length. -/
def length : Repeatable → Nat
  | text length => length
  | list length => length

/-- The bytes that one item takes at least. -/
def itemSize : Repeatable → Nat
  | text _ => 1
  | list _ => 8

/-- The fault of a repetition that is too long to be counted. -/
def lengthFault : Repeatable → Fault
  | text _ => .textTooLong
  | list _ => .outOfMemory

/-- The fault of repeating something `n` times where a number belongs: by its size, else by its
type. A negative count repeats nothing. -/
def repetitionFault (content : Repeatable) (n : Int) : Fault :=
  let length := content.length * n.toNat
  if mostItems < n || n < -mostItems - 1 then .countTooLarge
  else if mostItems < length then content.lengthFault
  else if room < content.itemSize * length then .outOfMemory
  else .wrongType

end Repeatable

/-- What a value repeats. -/
def Value.repeatable? : Value → Option Repeatable
  | .text s => some (.text s.length)
  | .list items => some (.list items.length)
  | _ => none

/-! ## Integers as text -/

/-- The text of an integer; one with too many digits has none. -/
def integerText (n : Int) : Except Fault Text :=
  let digits := toString n.natAbs
  if Fault.mostDigits < digits.length then .error .integerTooLong
  else .ok (if n < 0 then "-" ++ digits else digits)

/-! ## Numbers spelled as text -/

namespace Text

/-- A text that spells a number, with blanks beyond ASCII as spaces and digits of every script as
ASCII digits. A text of ASCII characters stays as it is. -/
def plainDigits (text : List CodePoint) : List Char :=
  text.map fun
    | .surrogate _ => '?'
    | .char c =>
      if c.toNat < 128 then c
      else if isBlank c then ' '
      else match decimalValue? c with
        | some d => Char.ofNat (48 + d)
        | none => '?'

/-- The blanks that may surround a number. -/
def isNumberBlank (c : Char) : Bool := c == ' ' || (9 ≤ c.toNat && c.toNat ≤ 13)

/-- Removes the underscores between two digits; any other underscore stays and spoils the
number. -/
def dropUnderscores (before : Char) : List Char → List Char
  | [] => []
  | '_' :: d :: rest =>
    if before.isDigit && d.isDigit then d :: dropUnderscores d rest
    else '_' :: dropUnderscores '_' (d :: rest)
  | c :: rest => c :: dropUnderscores c rest

/-- The value of a run of digits. -/
def digitsValue (digits : List Char) : Nat :=
  digits.foldl (fun n d => 10 * n + (d.toNat - 48)) 0

/-- An exponent: a sign and at least one digit. -/
def exponent? (text : List Char) : Option Int :=
  let (negative, digits) := match text with
    | '-' :: rest => (true, rest)
    | '+' :: rest => (false, rest)
    | rest => (false, rest)
  if digits.isEmpty || !digits.all Char.isDigit then none
  else
    let n : Int := digitsValue digits
    some (if negative then -n else n)

/-- A number without its sign: a name of infinity or of no number, or digits with an optional
point and exponent. -/
def unsigned? (negative : Bool) (text : List Char) : Option Binary64 :=
  let name := text.map Char.toLower
  if name = "inf".toList || name = "infinity".toList then some (.infinite negative)
  else if name = "nan".toList then some .nan
  else
    let whole := text.takeWhile Char.isDigit
    let afterWhole := text.dropWhile Char.isDigit
    let (fraction, afterFraction) := match afterWhole with
      | '.' :: rest => (rest.takeWhile Char.isDigit, rest.dropWhile Char.isDigit)
      | rest => ([], rest)
    if whole.isEmpty && fraction.isEmpty then none
    else
      let exponent := match afterFraction with
        | [] => some 0
        | c :: rest => if c = 'e' || c = 'E' then exponent? rest else none
      exponent.map fun e =>
        .ofDecimal negative (digitsValue (whole ++ fraction)) (e - fraction.length)

/-- The double that a text spells. -/
def toBinary64? (text : Text) : Option Binary64 :=
  let plain := (plainDigits text.toList).dropWhile isNumberBlank
  let plain := (plain.reverse.dropWhile isNumberBlank).reverse
  match dropUnderscores ' ' plain with
  | '-' :: rest => unsigned? true rest
  | '+' :: rest => unsigned? false rest
  | rest => unsigned? false rest

end Text

namespace Value

/-- The number that a value is. -/
def number : Value → Except Fault Number
  | bool b => .ok (.int (if b then 1 else 0))
  | int n => .ok (.int n)
  | double x => .ok (.double x)
  | _ => .error .wrongType

/-- The double that a value is or, being a text, spells. -/
def toBinary64 (value : Value) : Except Fault Binary64 :=
  match value with
  | text s =>
    match Text.toBinary64? s with
    | some x => .ok x
    | none => .error (.notNumeric s)
  | value => do (← value.number).toBinary64

/-- The integer that a value is, truth values being 0 and 1. -/
def integer? : Value → Option Int
  | bool b => some (if b then 1 else 0)
  | int n => some n
  | _ => none

/-- The product of two numbers. A text or a list beside an integer is repeated, which gives no
number either but may already fail by its size. -/
def times (a b : Value) : Except Fault Number := do
  match a.repeatable?, b.integer?, b.repeatable?, a.integer? with
  | some content, some n, _, _ => throw (content.repetitionFault n)
  | _, _, some content, some n => throw (content.repetitionFault n)
  | _, _, _, _ => (← a.number).mul (← b.number)

/-- The value rounded to an integer. -/
def round (value : Value) : Except Fault Int := do (← value.number).round

end Value

end Handoff
