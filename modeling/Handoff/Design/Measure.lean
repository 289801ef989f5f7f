import Handoff.Data.Number

/-!
Measures: how a length or another number is written into a style sheet.

A measure has at most two decimals. A whole number is written in full; any other has six
significant digits, and an exponent from a million on.
-/

namespace Handoff.Design

open Numeric

/-- Measures that are not whole are written positionally below a million. -/
def measureSpelling : Decimal.Spelling := ⟨-4, 6, ""⟩

/-- The text of a double as a measure. -/
def measureOfDouble (x : Binary64) : Except Fault Text := do
  let rounded := x.toHundredths
  let whole ← rounded.truncate
  if rounded.toRat? = some (whole : Rat) then return toString whole
  else return rounded.write measureSpelling fun negative value =>
    Decimal.significant negative value 6

/-- The text of a value as a measure. -/
def measure (value : Value) : Except Fault Text := do measureOfDouble (← value.toBinary64)

/-- The text of a value as a length in pixels. -/
def pixels (value : Value) : Except Fault Text := do return (← measure value) ++ "px"

end Handoff.Design
