import Handoff.Text.Quoted
import Handoff.Text.Unprintable

/-!
Texts as they are shown in messages: quoted, with escapes for whatever has no printed form.
-/

namespace Handoff.Text

/-- The number in base sixteen with at least `width` digits. -/
def hex (width n : Nat) : List Char :=
  let digits := Nat.toDigits 16 n
  List.replicate (width - digits.length) '0' ++ digits

/-- The escape of a code point by its number. -/
def numberedEscape (n : Nat) : List Char :=
  if n < 0x100 then '\\' :: 'x' :: hex 2 n
  else if n < 0x10000 then '\\' :: 'u' :: hex 4 n
  else '\\' :: 'U' :: hex 8 n

/-- How one code point is shown between quotes of the given kind. -/
def showCodePoint (quote : Char) : CodePoint → List Char
  | .surrogate index => numberedEscape (CodePoint.surrogate index).toNat
  | .char c =>
    if c = quote || c = '\\' then ['\\', c]
    else if c = '\t' then ['\\', 't']
    else if c = '\n' then ['\\', 'n']
    else if c = '\r' then ['\\', 'r']
    else if unprintable.has c then numberedEscape c.toNat
    else [c]

/-- The text between apostrophes; between double quotes when it holds an apostrophe and no double
quote. -/
def shown (text : Text) : Text :=
  let points := text.toList
  let quote := if points.contains apostrophe && !points.contains '"' then '"' else apostrophe
  Text.ofChars (quote :: points.flatMap (showCodePoint quote) ++ [quote])

end Handoff.Text
