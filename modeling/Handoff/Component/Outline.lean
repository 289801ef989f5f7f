import Handoff.Component.Annotated

/-!
Outlines: the classes, roles and text properties of a component, one element a line.
-/

namespace Handoff

/-- The line of one element at a depth. -/
def outlineLine (component : Text) (depth : Nat) (element : Element) : Text :=
  Text.ofList (List.replicate (2 * depth) ' ') ++ "├─ " ++ element.cssClass component ++ "  [" ++
    element.role.name ++ "]" ++
    match element.slot with
    | some slot => "  \x7b" ++ slotName slot ++ "\x7d"
    | none => ""

mutual

/-- The lines of a tree of elements. -/
def outlineTree (component : Text) (depth : Nat) : Tree Element → List Text
  | .node element children =>
    outlineLine component depth element :: outlineForest component (depth + 1) children

/-- The lines of trees side by side. -/
def outlineForest (component : Text) (depth : Nat) : Forest Element → List Text
  | [] => []
  | t :: ts => outlineTree component depth t ++ outlineForest component depth ts

end

/-- The outline of a component. -/
def outline (component : Component) : Text :=
  Text.intercalate "\n" ((component.name ++ "  ." ++ component.cssClass) ::
    outlineForest component.name 1 component.forest)

end Handoff
