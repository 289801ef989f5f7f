import Handoff.Proofs.Design.Styling

/-!
What the style of a layer says, field by field, and what decides its two extents.

A layer looks to its container in one case alone: it fills the container along the axis of that one and grows
there. Then it has no extent of its own along the axis. In all other cases, and across the axis always, its
own sizing decides.
-/

namespace Handoff.Design

open Value

/-! ### Axes -/

namespace Axis

end Axis

namespace Layer

/-- The size of the bounding box along an axis; null without one. -/
def size (layer : Layer) : Axis → Value
  | .row => layer.width
  | .column => layer.height

/-- The sizing of the layer along an axis. -/
def sizing (layer : Layer) : Axis → Value
  | .row => (layer.layout.map AutoLayout.sizingHorizontal).getD .null
  | .column => (layer.layout.map AutoLayout.sizingVertical).getD .null

end Layer

/-- The extent that a style gives along an axis. -/
def Style.extent (style : Style) : Axis → Option Extent
  | .row => style.width
  | .column => style.height

/-! ### The fields of a style -/

variable {layer : Layer} {place : Placement} {style : Style} {size sizing grow : Value}

variable {container : Layer} {isAsset : Bool}

end Handoff.Design
