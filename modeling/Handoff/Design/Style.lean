import Handoff.Design.Color
import Handoff.Design.Layer

/-!
Styles: what a layer's geometry, paints and typography say about its appearance.

Only the first visible solid fill colours a layer; gradients, images and further fills are left
out.
-/

namespace Handoff.Design

/-- The typography of a text layer. -/
structure TextStyle where
  characters : Value
  fontFamily : Value
  fontSize : Value
  fontWeight : Value
  lineHeight : Value
  letterSpacing : Value
  textAlign : Option Text
  color : Option Text

/-- How a container is displayed. -/
inductive Display where
  | flex
  | inlineFlex
deriving DecidableEq

/-- Where children stand along an axis. -/
inductive AxisAlignment where
  | start
  | center
  | finish
  | spaceBetween
deriving DecidableEq

/-- The layout that a container imposes on its children. -/
structure FlexBox where
  display : Display
  direction : Axis
  justify : AxisAlignment
  align : AxisAlignment
deriving DecidableEq

/-- The extent of a layer in one direction. -/
inductive Extent where
  | full
  | pixels (n : Int)
deriving DecidableEq

/-- The appearance of a layer. Gap and radius are null when absent. -/
structure Style where
  flexBox : Option FlexBox
  gap : Value
  padding : Option Padding
  width : Option Extent
  height : Option Extent
  flexGrow : Bool
  backgroundColor : Option Text
  borderRadius : Value
  text : Option TextStyle

namespace Display

/-- The name of the display. -/
def name : Display → Text
  | flex => "flex"
  | inlineFlex => "inline-flex"

end Display

namespace Axis

/-- The name of the direction. -/
def name : Axis → Text
  | row => "row"
  | column => "column"

end Axis

namespace AxisAlignment

/-- The name of the alignment. -/
def name : AxisAlignment → Text
  | start => "start"
  | center => "center"
  | finish => "end"
  | spaceBetween => "space-between"

end AxisAlignment

namespace Extent

/-- The extent as it is written. -/
def text : Extent → Text
  | full => "100%"
  | pixels n => toString n ++ "px"

end Extent

/-- The alignments along the layout axis. -/
def primaryAlignments : List (Text × AxisAlignment) :=
  [("MIN", .start), ("CENTER", .center), ("MAX", .finish), ("SPACE_BETWEEN", .spaceBetween)]

/-- The alignments across the layout axis. -/
def counterAlignments : List (Text × AxisAlignment) :=
  [("MIN", .start), ("CENTER", .center), ("MAX", .finish)]

/-- The alignments of text. -/
def textAlignments : List (Text × Text) :=
  [("LEFT", "left"), ("CENTER", "center"), ("RIGHT", "right"), ("JUSTIFIED", "justify")]

/-- The colour of the first visible solid fill. -/
def solidFillColor? (fills : List Paint) : Except Fault (Option Text) :=
  match fills.find? fun paint => paint.visible.truthy && paint.kind.isText "SOLID" with
  | some paint => cssColor? paint.color paint.opacity
  | none => .ok none

namespace Layer

/-- The colour of the layer's first visible solid fill. -/
def solidFill? (layer : Layer) : Except Fault (Option Text) := solidFillColor? layer.fills

/-- The radius of the corners: the common one, else the first of the four; null without any. -/
def radius (layer : Layer) : Value :=
  if !layer.cornerRadius.isNull then layer.cornerRadius
  else match layer.cornerRadii with
    | some (first :: _) => first
    | _ => .null

/-- The typography of a layer that shows text. -/
def textStyle? (layer : Layer) : Except Fault (Option TextStyle) := do
  if !layer.showsText then return none
  let get := layer.typography.get
  let textAlign ← (get "textAlignHorizontal").entryOf? textAlignments
  let color ← layer.solidFill?
  return some {
    characters := layer.characters
    fontFamily := get "fontFamily"
    fontSize := get "fontSize"
    fontWeight := get "fontWeight"
    lineHeight := (layer.typography.get? "lineHeightPx").getD (get "lineHeight")
    letterSpacing := get "letterSpacing"
    textAlign
    color }

end Layer

/-- What the surroundings of a layer contribute to its style. -/
structure Placement where
  parentAxis : Option Axis
  isAsset : Bool
  isRoot : Bool
  rootText : Option TextStyle

namespace Placement

/-- The top of a component, with the first typography inside it. -/
def root (rootText : Option TextStyle) : Placement := ⟨none, false, true, rootText⟩

/-- A layer inside a container. -/
def child (parentAxis : Option Axis) (isAsset : Bool) : Placement :=
  ⟨parentAxis, isAsset, false, none⟩

end Placement

/-- Whether a layer takes a share of the free space: its grow factor is at least 1. -/
def growsAlong (grow : Value) : Except Fault Bool := do
  return (← (grow.orElse (.int 0)).number).intLe 1

/-- The extent of a layer in one direction, and whether it takes a share of the free space
there. A layer that fills its container grows along the container's axis and takes the full extent
elsewhere; one that hugs its content has no extent of its own. -/
def extent (size sizing grow : Value) (alongAxis : Bool) : Except Fault (Option Extent × Bool) := do
  if sizing.isText "FILL" then
    if alongAxis then
      if ← growsAlong grow then return (none, true) else return (some .full, false)
    else return (some .full, false)
  else if sizing.isText "HUG" then return (none, false)
  else if size.isNull then return (none, false)
  else return (some (.pixels (← size.round)), false)

/-- The layout of a container over its children. -/
def flexBoxOf (layout : AutoLayout) (axis : Axis) (isRoot : Bool) : Except Fault FlexBox := do
  let justify := (← layout.primaryAlign.entryOf? primaryAlignments).getD .start
  let align := (← layout.counterAlign.entryOf? counterAlignments).getD .start
  return {
    display := if isRoot && axis = .row then .inlineFlex else .flex
    direction := axis
    justify
    align }

/-- The layout of the top of a component that says nothing about layout. -/
def plainColumn : FlexBox := ⟨.flex, .column, .start, .start⟩

/-- The layout over a layer's children: its automatic layout, or a column at the top. -/
def flexBox? (layer : Layer) (isRoot : Bool) : Except Fault (Option FlexBox) := do
  match layer.layout, layer.axis? with
  | some layout, some axis => return some (← flexBoxOf layout axis isRoot)
  | _, _ => return if isRoot then some plainColumn else none

/-- The background of a layer: its fill, else its background colour. -/
def background? (layer : Layer) : Except Fault (Option Text) := do
  match ← layer.solidFill? with
  | some color => return some color
  | none => opaqueColor? layer.backgroundColor

/-- The style of a layer at its place. Pictures and texts have neither background nor radius. -/
def styleOf (layer : Layer) (place : Placement) : Except Fault Style := do
  let flexBox ← flexBox? layer place.isRoot
  let sizing (of : AutoLayout → Value) : Value := (layer.layout.map of).getD .null
  let grow := sizing AutoLayout.grow
  let (width, growsWide) ← extent layer.width (sizing AutoLayout.sizingHorizontal) grow
    (place.parentAxis = some .row)
  let (height, growsHigh) ← extent layer.height (sizing AutoLayout.sizingVertical) grow
    (place.parentAxis = some .column)
  let boxed := !place.isAsset && !layer.isOfTextType
  let backgroundColor ← if boxed then background? layer else pure none
  let ownText ← layer.textStyle?
  return {
    flexBox
    gap := sizing AutoLayout.itemSpacing
    padding := layer.layout.bind AutoLayout.padding
    width
    height
    flexGrow := growsWide || growsHigh
    backgroundColor
    borderRadius := if boxed then layer.radius else .null
    text := if place.isRoot then ownText.or place.rootText else ownText }

/-- The typography of the first layer of a tree that shows text. -/
def firstTextStyle? (layers : List Layer) : Except Fault (Option TextStyle) :=
  match layers with
  | [] => .ok none
  | layer :: rest => do
    match ← layer.textStyle? with
    | some style => return some style
    | none => firstTextStyle? rest

end Handoff.Design
