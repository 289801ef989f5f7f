import Handoff.Design.Layer

/-!
Roles: how a layer appears in the generated code, decided by its own fields alone.

A layer is an asset when it is exported as a picture: a raster picture for image fills, a vector
picture for vector shapes, otherwise as its first export setting says.
-/

namespace Handoff.Design

/-- The picture formats of exports. -/
inductive ExportFormat where
  | svg
  | png
deriving DecidableEq

namespace ExportFormat

/-- The name of the format, which is also its file extension. -/
def name : ExportFormat → Text
  | svg => "svg"
  | png => "png"

/-- The name of the format in messages. -/
def label : ExportFormat → Text
  | svg => "SVG"
  | png => "PNG"

end ExportFormat

/-- How a layer appears. -/
inductive Role where
  | container
  | text
  | shape
  | vectorAsset
  | rasterAsset
  | decoration
deriving DecidableEq

namespace Role

/-- The name of the role. -/
def name : Role → Text
  | container => "container"
  | text => "text"
  | shape => "shape"
  | vectorAsset => "vector"
  | rasterAsset => "raster"
  | decoration => "decoration"

/-- Whether the layer appears as a picture. -/
def isAsset : Role → Bool
  | vectorAsset => true
  | rasterAsset => true
  | _ => false

end Role

/-- The types of layers without any visual output. -/
def nonVisualTypes : List Text :=
  ["SLICE", "STICKY", "CONNECTOR", "WIDGET", "EMBED", "LINK_UNFURL", "SHAPE_WITH_TEXT"]

/-- Whether a text spells the vector format in either case; the long s is a small s. -/
def namesVectorFormat (text : Text) : Bool :=
  match text.toList with
  | [a, b, c] =>
    (a == 's' || a == 'S' || a == Char.ofNat 0x17F) && (b == 'v' || b == 'V') &&
      (c == 'g' || c == 'G')
  | _ => false

/-- The format that an export setting asks for; every format but the vector one is raster. -/
def formatOfSetting (setting : Value) : Except Fault ExportFormat := do
  let name ← ((← setting.field "format").orElse .emptyText).asText .noSuchField
  return if namesVectorFormat name then .svg else .png

namespace Layer

/-- Whether the layer is to be exported as a picture. -/
def isAssetCandidate (layer : Layer) : Except Fault Bool :=
  if !layer.exportSettings.isEmpty || layer.hasImageFill then .ok true else layer.isVector

/-- The format in which the layer is exported, if it is. -/
def exportFormat? (layer : Layer) : Except Fault (Option ExportFormat) := do
  if layer.hasImageFill then return some .png
  else if ← layer.isVector then return some .svg
  else match layer.exportSettings with
    | setting :: _ => return some (← formatOfSetting setting)
    | [] => return none

end Layer

/-- The role of a layer with its children. -/
def roleOf (tree : LayerTree) : Except Fault Role := do
  let layer := tree.label
  match ← layer.exportFormat? with
  | some .png => return .rasterAsset
  | some .svg => return .vectorAsset
  | none =>
    if layer.isOfTextType then return if layer.showsText then .text else .decoration
    else if ← layer.typeName.isOneOf nonVisualTypes then return .decoration
    else if tree.children.isEmpty then return .shape
    else return .container

/-- The roles already decided, by layer id. -/
abbrev RoleMemo := Table Key Role

/-- The role of a layer; a layer whose id is in the memo has the role that stands there. -/
def RoleMemo.role (memo : RoleMemo) (tree : LayerTree) : Except Fault (Role × RoleMemo) := do
  let key ← tree.label.id.key
  match memo.lookup key with
  | some role => return (role, memo)
  | none =>
    let role ← roleOf tree
    return (role, memo.put key role)

end Handoff.Design
