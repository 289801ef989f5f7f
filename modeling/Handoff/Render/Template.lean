import Handoff.Render.Markup
import Handoff.Text.Quoted

/-!
Templates: the script file of a component, a function from properties to markup.

The first picture can be replaced through the properties `imageSrc` and `imageAlt`; every text is a
property with the designed characters as its default.
-/

namespace Handoff.Render

open Asset Design

/-- The class attribute of script markup. -/
def scriptDialect : Dialect := ⟨"className"⟩

/-- The files that a component shows, each once, in the order of their elements. -/
def shownFiles (files : FileMap) (component : Component) : List Text :=
  distinct (component.assets.filterMap fun element => files.file? element.key)

/-- Whether an element has the id of the component's first picture. -/
def isPrimary (component : Component) (element : Element) : Bool :=
  match component.primary? with
  | some first => element.key.same first.key
  | none => false

/-- The tag of a picture: the first one is bound to the image properties. -/
def pictureTag (files : FileMap) (primary : Bool) (element : Element) (cssClass : Text) :
    Except Fault Tag := do
  match primary, files.file? element.key with
  | true, some file =>
    let alt := Text.scriptLiteral (← description element)
    let source := braced ("imageSrc || " ++ handle file)
    return ⟨cssClass, .picture source (braced ("imageAlt || " ++ alt))⟩
  | true, none =>
    let alt := Text.scriptLiteral (← description element)
    return ⟨cssClass, .pictureIf "imageSrc" (braced ("imageAlt || " ++ alt))⟩
  | false, some file =>
    let alt := Text.escapeMarkup (← description element)
    return ⟨cssClass, .picture (braced (handle file)) (quoted alt)⟩
  | false, none => return ⟨cssClass, .box⟩

/-- The tag of an element in a template. -/
def templateTag (files : FileMap) (component : Component) (element : Element) : Except Fault Tag :=
  let cssClass := element.cssClass component.name
  if element.isAsset then pictureTag files (isPrimary component element) element cssClass
  else match element.slot with
    | some slot => .ok ⟨cssClass, .span (braced (slotName slot))⟩
    | none => .ok ⟨cssClass, .box⟩

/-- The markup of a component in its template. -/
def templateMarkup (files : FileMap) (component : Component) : Except Fault Markup :=
  markupForest (templateTag files component) component.forest

/-- A property of a component's function with its default. -/
structure Property where
  name : Text
  default : Text

/-- The line that declares a property. -/
def Property.line (property : Property) : Text :=
  "  " ++ property.name ++ " = " ++ property.default ++ ","

/-- A text property: its default is the literal of the designed characters. -/
def textProperty (prop : Text × Value) : Except Fault Property := do
  return ⟨prop.1, Text.scriptLiteral (← prop.2.asText .noSuchField)⟩

/-- The properties that replace the first picture. -/
def imageProperties (component : Component) : List Property :=
  if component.hasAssets then [⟨"imageSrc", "null"⟩, ⟨"imageAlt", "null"⟩] else []

/-- The properties of a component, in order. -/
def properties (component : Component) : Except Fault (List Property) := do
  let texts ← component.textProps.mapM textProperty
  return ⟨"className", "''"⟩ :: texts ++ imageProperties component

/-- The lines that import the style sheet and the pictures. -/
def importLines (files : FileMap) (component : Component) (assetsImport : Text) : List Text :=
  "import React from 'react';" :: ("import './" ++ component.name ++ ".scss';") ::
    (shownFiles files component).map fun file =>
      "import " ++ handle file ++ " from '" ++ assetsImport ++ "/" ++ file ++ "';"

/-- The comment that heads a component. -/
def headLines (component : Component) : List Text :=
  ["",
   "/**",
   " * " ++ component.name ++ " Component",
   " * Auto-generated from Figma",
   " *",
   " * Contains " ++ toString component.texts.length ++ " text element(s)",
   " * " ++ toString component.elements.length ++ " child element(s)",
   " * " ++ toString component.assets.length ++ " asset(s)",
   " */"]

/-- The outermost box, which takes the class and the further properties from outside. -/
def rootBox (component : Component) : Text :=
  "    <div className=\x7b`" ++ component.cssClass ++
    " $\x7bclassName\x7d`.trim()\x7d \x7b...props\x7d>"

/-- The text of a component's template. -/
def template (files : FileMap) (component : Component) (assetsImport : Text) :
    Except Fault Text := do
  let properties ← properties component
  let markup ← templateMarkup files component
  return unlines (
    importLines files component assetsImport ++ headLines component ++
    (["export const " ++ component.name ++ " = (\x7b"] : Lines) ++
    properties.map Property.line ++
    (["  ...props", "\x7d) => \x7b", "  return (", rootBox component] : Lines) ++
    forestLines scriptDialect 3 markup ++
    (["    </div>", "  );", "\x7d;", "", "export default " ++ component.name ++ ";", ""] : Lines))

end Handoff.Render
