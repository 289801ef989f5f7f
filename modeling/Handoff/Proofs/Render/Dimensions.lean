import Handoff.Proofs.Component.Placing
import Handoff.Proofs.Render.Declaring
import Handoff.Proofs.Render.Typed

/-!
How large an element is, by the rules of a style sheet.

Whether an element takes a share of the free space is decided by two rules: its own, and that of what is
around it, which has to lay out its children along the same axis. The walk hands the axis down, and what is
around declares it.
-/

namespace Handoff

open Asset Design Naming Render

namespace Render

variable {files : FileMap} {component : Component} {root : LayerTree} {around : Option Element}
  {e : Element} {rule outer : Rule}

/-! ### Values of a rule -/

/-- A layout along a row, without anything else. -/
def rowLayout : AutoLayout where
  mode := .text "HORIZONTAL"
  itemSpacing := .null
  padding := none
  primaryAlign := .null
  counterAlign := .null
  sizingHorizontal := .null
  sizingVertical := .null
  grow := .null

/-- A layer that fills a row and is 20 high. -/
def field : Layer :=
  { plainLayer "2:2" "Field" "RECTANGLE" with
    height := .int 20
    layout := some { rowLayout with sizingHorizontal := .text "FILL", grow := .int 1 } }

end Render

end Handoff
