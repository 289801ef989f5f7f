import Handoff.Design.Layer

/-!
Reading layers from the values of a design file.

A field that is missing takes its default, a field that is null is null. Children that are not
visible are left out with everything below them, unread.
-/

namespace Handoff.Design

/-- The field of a record, with a default for a missing one. -/
def fieldOr (fields : Fields) (name : Text) (missing : Value) : Value :=
  (fields.lookup name).getD missing

/-- The field of a record, null when it is missing. -/
def fieldOf (fields : Fields) (name : Text) : Value := fieldOr fields name .null

/-- The paints of a layer; whatever is not a record is no paint. -/
def readPaints : Value → List Paint
  | .list fills => fills.filterMap fun fill =>
    match fill with
    | .record fields => some {
        kind := fieldOr fields "type" .emptyText
        color := fieldOf fields "color"
        opacity := fieldOr fields "opacity" (.double (.finite 1))
        visible := fieldOr fields "visible" (.bool true) }
    | _ => none
  | _ => []

/-- The names of the four paddings. -/
def paddingNames : List Text := ["paddingTop", "paddingRight", "paddingBottom", "paddingLeft"]

/-- The padding of a layer with any: each side that is absent is 0. -/
def readPadding (fields : Fields) : Option Padding :=
  let side name := (fieldOf fields name).orElse (.int 0)
  if paddingNames.any fun name => !(fieldOf fields name).isNull then
    some {
      top := side "paddingTop"
      right := side "paddingRight"
      bottom := side "paddingBottom"
      left := side "paddingLeft" }
  else none

/-- The fields that say something about automatic layout. -/
def layoutNames : List Text :=
  "layoutMode" :: "itemSpacing" :: "primaryAxisAlignItems" :: "counterAxisAlignItems" ::
    "layoutSizingHorizontal" :: "layoutSizingVertical" :: "layoutGrow" :: paddingNames

/-- The automatic layout of a layer that has any field of it. -/
def readLayout (fields : Fields) : Option AutoLayout :=
  if layoutNames.any fun name => (fields.lookup name).isSome then
    some {
      mode := fieldOf fields "layoutMode"
      itemSpacing := fieldOf fields "itemSpacing"
      padding := readPadding fields
      primaryAlign := fieldOf fields "primaryAxisAlignItems"
      counterAlign := fieldOf fields "counterAxisAlignItems"
      sizingHorizontal := fieldOf fields "layoutSizingHorizontal"
      sizingVertical := fieldOf fields "layoutSizingVertical"
      grow := fieldOf fields "layoutGrow" }
  else none

/-- The layout and the padding of a value by itself. A text or a list can be searched for a name
but has no fields; other values cannot even be searched. -/
def readLayoutOf : Value → Except Fault (Option AutoLayout × Option Padding)
  | .record fields => .ok (readLayout fields, readPadding fields)
  | .text _ => .error .noSuchField
  | .list _ => .error .noSuchField
  | _ => .error .wrongType

/-- Enters a value at a key. A key that is already there stays as it was first written. -/
def enter (entries : Table Key (Value × Value)) (key : Key) (name value : Value) :
    Table Key (Value × Value) :=
  match entries.lookup key with
  | some (first, _) => entries.put key (first, value)
  | none => entries.put key (name, value)

/-- Enters a list of pairs; `index` is the number of the first. The first of a pair must be usable as
a key. -/
def readPairs (entries : Table Key (Value × Value)) (index : Nat) :
    List Value → Except Fault Typography
  | [] => .ok (entries.map (·.2))
  | pair :: rest => do
    match ← pair.elements with
    | [name, value] => readPairs (enter entries (← name.key) name value) (index + 1) rest
    | parts => throw (.notAPair index parts.length)

/-- The entries of a record, or those that a list of pairs stands for. -/
def readTypography (value : Value) : Except Fault Typography := do
  match value with
  | .record fields => return fields.map fun field => (.text field.1, field.2)
  | value => if value.truthy then readPairs [] 0 (← value.elements) else return []

/-- The elements of a value that may be absent. -/
def readElements (value : Value) : Except Fault (List Value) :=
  if value.truthy then value.elements else .ok []

/-- One layer without its children. -/
def readLayer (fields : Fields) : Except Fault Layer := do
  let box := (fieldOf fields "absoluteBoundingBox").orElse (.record [])
  let radii := fieldOf fields "rectangleCornerRadii"
  let boxFields ← box.fields
  let exportSettings ← readElements (fieldOf fields "exportSettings")
  let typography ← readTypography (fieldOf fields "style")
  let cornerRadii ← if radii.truthy then some <$> radii.elements else pure none
  return {
    id := fieldOr fields "id" .emptyText
    name := fieldOr fields "name" .emptyText
    typeName := fieldOr fields "type" (.text "FRAME")
    width := fieldOf boxFields "width"
    height := fieldOf boxFields "height"
    fills := readPaints (fieldOf fields "fills")
    layout := readLayout fields
    exportSettings
    characters := (fieldOf fields "characters").orElse .emptyText
    typography
    cornerRadius := fieldOf fields "cornerRadius"
    cornerRadii
    backgroundColor := fieldOf fields "backgroundColor" }

/-- Whether a child is visible; a child without the field is. -/
def isVisible (child : Value) : Except Fault Bool := do
  return ((← child.field? "visible").getD (.bool true)).truthy

mutual

/-- A layer with its visible children, which are read before the layer's own fields. -/
def readTree : Value → Except Fault LayerTree
  | .record fields => do
    let children ← readChildren fields
    return .node (← readLayer fields) children
  | _ => .error .noSuchField

/-- The children among the fields of a layer. -/
def readChildren : List (Text × Value) → Except Fault (Forest Layer)
  | [] => .ok []
  | (name, value) :: rest => if name = "children" then readForest value else readChildren rest

/-- The visible layers of a list. An absent list has none; no other value holds layers. -/
def readForest : Value → Except Fault (Forest Layer)
  | .list items => readVisible items
  | .record fields => if fields.isEmpty then .ok [] else .error .noSuchField
  | .text s => if s.isEmpty then .ok [] else .error .noSuchField
  | value => if value.truthy then .error .wrongType else .ok []

/-- The visible layers of a list, in order. -/
def readVisible : List Value → Except Fault (Forest Layer)
  | [] => .ok []
  | item :: rest => do
    if ← isVisible item then
      let tree ← readTree item
      return tree :: (← readVisible rest)
    else readVisible rest

end

/-- A design file: its name, the tree of its layers, and its shared styles. -/
structure Document where
  name : Value
  root : LayerTree
  styles : Value

/-- Reads the answer to a file request. -/
def Document.read (file : Value) : Except Fault Document := do
  let fields ← file.fields
  match fieldOf fields "document" with
  | .record document =>
    let root ← readTree (.record document)
    return {
      name := fieldOr fields "name" .emptyText
      root
      styles := (fieldOf fields "styles").orElse (.record []) }
  | _ => .error .noDocument

end Handoff.Design
