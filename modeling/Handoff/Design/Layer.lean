import Handoff.Data.Value
import Handoff.Tree

/-!
Layers of a design: what one node of the document says about itself.

A layer keeps its fields as the document gives them. The kind of a layer, its layout axis and its
image fills are read off here.
-/

namespace Handoff.Design

/-- One paint of a layer. -/
structure Paint where
  kind : Value
  color : Value
  opacity : Value
  visible : Value

/-- The distances between a container's edges and its children. -/
structure Padding where
  top : Value
  right : Value
  bottom : Value
  left : Value

/-- The direction in which a container lays out its children. -/
inductive Axis where
  | row
  | column
deriving DecidableEq

/-- Automatic layout: of a container over its children, and of a layer inside its container. -/
structure AutoLayout where
  mode : Value
  itemSpacing : Value
  padding : Option Padding
  primaryAlign : Value
  counterAlign : Value
  sizingHorizontal : Value
  sizingVertical : Value
  grow : Value

/-- The axis of a container, if it lays out its children. -/
def AutoLayout.axis? (layout : AutoLayout) : Option Axis :=
  if layout.mode.isNull || layout.mode.isText "NONE" then none
  else if layout.mode.isText "HORIZONTAL" then some .row
  else some .column

/-- The typography of a layer as the document gives it: keys with values. -/
abbrev Typography := List (Value × Value)

/-- The entry of a typography at a name; other keys than texts are never asked for. -/
def Typography.get? (entries : Typography) (name : Text) : Option Value :=
  (entries.find? fun entry => entry.1.isText name).map (·.2)

/-- The entry of a typography at a name, null when it is missing. -/
def Typography.get (entries : Typography) (name : Text) : Value :=
  (entries.get? name).getD .null

/-- The fields of one layer. -/
structure Layer where
  id : Value
  name : Value
  typeName : Value
  width : Value
  height : Value
  fills : List Paint
  layout : Option AutoLayout
  exportSettings : List Value
  characters : Value
  typography : Typography
  cornerRadius : Value
  cornerRadii : Option (List Value)
  backgroundColor : Value

/-- A layer with the layers it contains. -/
abbrev LayerTree := Tree Layer

/-- The kinds of layers. -/
inductive Kind where
  | container
  | text
  | shape
  | vector
  | component
deriving DecidableEq

/-- The types of layers that are drawn as vectors. -/
def vectorTypes : List Text :=
  ["VECTOR", "BOOLEAN_OPERATION", "STAR", "ELLIPSE", "POLYGON", "LINE"]

/-- The types of reusable components. -/
def componentTypes : List Text := ["COMPONENT", "COMPONENT_SET"]

/-- The types of layers that hold others. -/
def containerTypes : List Text := ["DOCUMENT", "CANVAS", "FRAME", "GROUP", "INSTANCE", "SECTION"]

namespace Layer

/-- Whether the layer is of type text. -/
def isOfTextType (layer : Layer) : Bool := layer.typeName.isText "TEXT"

/-- Whether the layer is drawn as a vector. -/
def isVector (layer : Layer) : Except Fault Bool := layer.typeName.isOneOf vectorTypes

/-- The kind of the layer; what is in no list of types is a shape. -/
def kind (layer : Layer) : Except Fault Kind := do
  if ← layer.typeName.isOneOf componentTypes then return .component
  else if layer.isOfTextType then return .text
  else if ← layer.isVector then return .vector
  else if ← layer.typeName.isOneOf containerTypes then return .container
  else return .shape

/-- Whether one of the fills is an image. -/
def hasImageFill (layer : Layer) : Bool := layer.fills.any fun paint => paint.kind.isText "IMAGE"

/-- The axis along which the layer lays out its children. -/
def axis? (layer : Layer) : Option Axis := layer.layout.bind AutoLayout.axis?

/-- Whether the layer shows text. -/
def showsText (layer : Layer) : Bool := layer.isOfTextType && layer.characters.truthy

end Layer

end Handoff.Design
