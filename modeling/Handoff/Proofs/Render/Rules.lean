import Handoff.Proofs.Component.Placing
import Handoff.Proofs.Component.Roles
import Handoff.Proofs.Render.Agreement
import Handoff.Proofs.Render.Declaring
import Handoff.Proofs.Render.Typed

/-!
What rules declare for which elements, and what they never declare.

A picture and a text have no box, only layers that show text have typography, and the top of a component
borrows that of the first such layer inside it. Every declared value is written from something that is there.
-/

namespace Handoff

open Asset Design Naming Render

namespace Design

variable {layer : Layer} {text : TextStyle} {s : Text}

/-! ### Typography of layers -/

end Design

namespace Render

/-! ### Values that are written -/

variable {layer : Layer} {text : TextStyle} {style : Style} {place : Placement} {p : StyleProperty}
  {value : Value} {s : Text}

variable {files : FileMap} {component : Component} {e : Element} {rule : Rule} {tree : LayerTree}

end Render

end Handoff
