import Handoff.Naming.Rules
import Handoff.Text.Digit
import Std.Data.TreeSet

/-!
Component names: Pascal case, unique in the whole document. Names that differ only in case count
as the same, because the class of a component is its name in lower case.
-/

namespace Handoff.Naming

/-- The component names given so far, in lower case, the reserved ones included. -/
structure ComponentNames where
  used : Std.TreeSet Text

namespace ComponentNames

/-- Only the reserved names are taken. -/
def initial (rules : Rules) : ComponentNames := ⟨.ofList (rules.reserved.map Text.lower)⟩

/-- Whether a name is taken. -/
def taken (names : ComponentNames) (name : Text) : Bool := names.used.contains (Text.lower name)

/-- The name wanted for a label: its Pascal case or the fallback, never starting with a digit. -/
def base (rules : Rules) (label : Value) : Except Fault Text := do
  let pascal ← pascalOf label
  let name := if pascal.isEmpty then rules.fallbackComponent else pascal
  match name.toList with
  | [] => .error .emptyText
  | c :: _ => return if Text.isDigit c then rules.digitLead ++ name else name

/-- The wanted name if it is free, else the first free one with a number. -/
def choose (rules : Rules) (names : ComponentNames) (base : Text) : Text :=
  if names.taken base then
    firstFree names.taken (fun k => base ++ toString k) rules.firstSuffix names.used.size
  else base

/-- Gives a label its name. -/
def resolve (rules : Rules) (names : ComponentNames) (label : Value) :
    Except Fault (Text × ComponentNames) := do
  let name := names.choose rules (← base rules label)
  return (name, ⟨names.used.insert (Text.lower name)⟩)

end ComponentNames

end Handoff.Naming
