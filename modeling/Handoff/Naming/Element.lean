import Handoff.Naming.Rules
import Std.Data.TreeSet

/-!
Element classes: slugs that are unique within one component, first come, first served.
-/

namespace Handoff.Naming

/-- The element classes given so far, and for how many labels. -/
structure ElementNames where
  labels : Nat
  used : Std.TreeSet Text

namespace ElementNames

/-- No class given yet. -/
def empty : ElementNames := ⟨0, ∅⟩

/-- The class wanted for a slug: the slug, or the fallback with the position of the label. -/
def base (rules : Rules) (names : ElementNames) (slug : Text) : Text :=
  if slug.isEmpty then rules.fallbackElement ++ "-" ++ toString (names.labels + 1) else slug

/-- The wanted class with a number. -/
def numbered (base : Text) (k : Int) : Text := base ++ "-" ++ toString k

/-- The class for a slug: the wanted one if it is free, else the first free one with a number. -/
def choose (rules : Rules) (names : ElementNames) (slug : Text) : Text :=
  let base := names.base rules slug
  if names.used.contains base then
    firstFree names.used.contains (numbered base) 1 names.used.size
  else base

/-- Gives a label its class. -/
def resolve (rules : Rules) (names : ElementNames) (label : Value) :
    Except Fault (Text × ElementNames) := do
  let name := names.choose rules (← slugOf label)
  return (name, ⟨names.labels + 1, names.used.insert name⟩)

end ElementNames

end Handoff.Naming
