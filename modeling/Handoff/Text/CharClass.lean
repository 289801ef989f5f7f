import Handoff.Text.Basic

/-!
Classes of characters given by ranges of code points.
-/

namespace Handoff.Text

/-- A class of characters: the first and last code point of each of its ranges. -/
abbrev CharClass := List (Nat × Nat)

/-- Whether a code point lies in one of the ranges. -/
def CharClass.has (ranges : CharClass) (c : CodePoint) : Bool :=
  ranges.any fun r => r.1 ≤ c.toNat && c.toNat ≤ r.2

end Handoff.Text
