import Handoff.Asset.FileName
import Handoff.Component.Annotated
import Handoff.Render.Markup

/-!
Style sheets: a rule for the component and inside it one rule for each element, in preorder.
-/

namespace Handoff.Render

open Asset Design

/-- One declaration of a rule. -/
structure Declaration where
  property : Text
  value : Text

/-- A selector with its declarations. -/
structure Rule where
  selector : Text
  declarations : List Declaration

/-- The declaration as it is written. -/
def Declaration.text (declaration : Declaration) : Text :=
  declaration.property ++ ": " ++ declaration.value ++ ";"

/-- The line of a declaration at a depth. -/
def Declaration.line (depth : Nat) (declaration : Declaration) : Text :=
  indented depth declaration.text

/-- The style sheet's word for an alignment. -/
def alignmentWord : AxisAlignment → Text
  | .start => "flex-start"
  | .center => "center"
  | .finish => "flex-end"
  | .spaceBetween => "space-between"

/-- A declaration of a value that may be null. -/
def declarationOf (property : Text) (write : Value → Except Fault Text) (value : Value) :
    Except Fault (List Declaration) := do
  if value.isNull then return [] else return [⟨property, ← write value⟩]

/-- A declaration of a text that may be missing. -/
def declarationOf? (property : Text) (value : Option Text) : List Declaration :=
  match value with
  | some text => [⟨property, text⟩]
  | none => []

/-- How children are laid out. -/
def flexDeclarations (flexBox : Option FlexBox) : List Declaration :=
  match flexBox with
  | some flex =>
    [⟨"display", flex.display.name⟩, ⟨"flex-direction", flex.direction.name⟩,
     ⟨"align-items", alignmentWord flex.align⟩, ⟨"justify-content", alignmentWord flex.justify⟩]
  | none => []

/-- The four paddings, clockwise from the top. -/
def paddingDeclarations (padding : Option Padding) : Except Fault (List Declaration) := do
  match padding with
  | some p =>
    let top ← pixels p.top
    let right ← pixels p.right
    let bottom ← pixels p.bottom
    let left ← pixels p.left
    return [⟨"padding", top ++ " " ++ right ++ " " ++ bottom ++ " " ++ left⟩]
  | none => return []

/-- The box of an element: its extents, background and corners. -/
def boxDeclarations (style : Style) : Except Fault (List Declaration) := do
  let radius ← declarationOf "border-radius" pixels style.borderRadius
  return (if style.flexGrow then [⟨"flex", "1"⟩] else []) ++
    declarationOf? "width" (style.width.map Extent.text) ++
    declarationOf? "height" (style.height.map Extent.text) ++
    declarationOf? "background-color" style.backgroundColor ++ radius

/-- The typography of an element. -/
def textDeclarations (text : Option TextStyle) : Except Fault (List Declaration) := do
  match text with
  | none => return []
  | some text =>
    let family := if text.fontFamily.truthy then
      [⟨"font-family", "'" ++ text.fontFamily.display ++ "', sans-serif"⟩] else []
    let size ← declarationOf "font-size" pixels text.fontSize
    let weight ← declarationOf "font-weight" measure text.fontWeight
    let lineHeight ← declarationOf "line-height" pixels text.lineHeight
    let spacing ← declarationOf "letter-spacing" pixels text.letterSpacing
    return family ++ size ++ weight ++ lineHeight ++ spacing ++
      declarationOf? "color" text.color ++ declarationOf? "text-align" text.textAlign

/-- All declarations of a style. -/
def styleDeclarations (style : Style) : Except Fault (List Declaration) := do
  let gap ← declarationOf "gap" pixels style.gap
  let padding ← paddingDeclarations style.padding
  let box ← boxDeclarations style
  let text ← textDeclarations style.text
  return flexDeclarations style.flexBox ++ gap ++ padding ++ box ++ text

/-- The declarations of an element; an exported picture keeps its size. -/
def elementDeclarations (files : FileMap) (element : Element) :
    Except Fault (List Declaration) := do
  let own ← styleDeclarations element.style
  return own ++
    if element.isAsset && (files.file? element.key).isSome then [⟨"flex-shrink", "0"⟩] else []

/-- The rule of an element inside the component's rule. -/
def elementRule (files : FileMap) (element : Element) : Except Fault Rule := do
  return ⟨"&__" ++ element.elementClass, ← elementDeclarations files element⟩

/-- The rule of the component itself. -/
def rootRule (component : Component) : Except Fault Rule := do
  return ⟨"." ++ component.cssClass, ← styleDeclarations component.style⟩

/-- The rules of the elements, in preorder. -/
def elementRules (files : FileMap) (component : Component) : Except Fault (List Rule) :=
  component.elements.mapM (elementRule files)

/-- The lines of an element's rule. -/
def Rule.nestedLines (rule : Rule) : List Text :=
  (["", "  " ++ rule.selector ++ " \x7b"] : Lines) ++
    rule.declarations.map (Declaration.line 2) ++ (["  \x7d"] : Lines)

/-- A size of the design, or a word for an unknown one. -/
def designSize (size : Value) : Except Fault Text :=
  if size.isNull then .ok "auto" else measure size

/-- The text of a component's style sheet. -/
def stylesheet (files : FileMap) (component : Component) : Except Fault Text := do
  let root ← rootRule component
  let rules ← elementRules files component
  let width ← designSize component.source.width
  let height ← designSize component.source.height
  let name ← component.source.name.asText .noSuchField
  return unlines (
    (["@use '../variables' as *;", "", root.selector ++ " \x7b"] : Lines) ++
    root.declarations.map (Declaration.line 1) ++
    rules.flatMap Rule.nestedLines ++
    (["",
     "  // Figma component: " ++ Text.singleSpaced name,
     "  // Original size: " ++ width ++ "x" ++ height,
     "  // Child elements: " ++ toString component.elements.length,
     "\x7d",
     ""] : Lines))

end Handoff.Render
