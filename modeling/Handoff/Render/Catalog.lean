import Handoff.Render.Template

/-!
Catalog files: the stories in which a component is shown, with its properties and their defaults.
-/

namespace Handoff.Render

/-- A property as the catalog describes it. -/
structure ArgType where
  name : Text
  description : Text

/-- The described properties, in the order of the template's. -/
def argTypes (component : Component) : List ArgType :=
  ⟨"className", "Additional CSS classes"⟩ ::
    (component.textProps.zipIdx.map fun p => ⟨p.1.1, "Text content " ++ toString (p.2 + 1)⟩) ++
    if component.hasAssets then
      [⟨"imageSrc", "Image source URL"⟩, ⟨"imageAlt", "Image alt text"⟩]
    else []

/-- The lines of one described property, without the comma after it. -/
def ArgType.lines (arg : ArgType) : List Text :=
  ["    " ++ quoted arg.name ++ ": \x7b",
   "        \"control\": \"text\",",
   "        \"description\": " ++ quoted arg.description,
   "    \x7d"]

/-- The described properties as a record. -/
def argTypesText (args : List ArgType) : Text :=
  "\x7b\n" ++ Text.intercalate ",\n" (args.map fun arg => unlines arg.lines) ++ "\n\x7d"

/-- The texts of a component in one line; its name when there are none. -/
def displayText (component : Component) : Except Fault Text := do
  let texts ← component.texts.mapM (Value.asText .wrongType)
  let joined := Text.trim (Text.intercalate " " texts)
  return if joined.isEmpty then component.name else joined

/-- A story: its name and the properties it sets, with literals as values. -/
structure Story where
  name : Text
  args : List Property

/-- The line of a property that a story sets. -/
def argLine (arg : Property) : Text := "  " ++ arg.name ++ ": " ++ arg.default ++ ","

/-- The lines of a story. -/
def Story.lines (story : Story) : List Text :=
  "" :: ("export const " ++ story.name ++ " = Template.bind(\x7b\x7d);") ::
    if story.args.isEmpty then [story.name ++ ".args = \x7b\x7d;"]
    else (story.name ++ ".args = \x7b") :: story.args.map argLine ++ (["\x7d;"] : Lines)

/-- The picture that stands in for a missing one. -/
def placeholderImage : Text := "https://via.placeholder.com/150"

/-- The stories of a component. -/
def stories (component : Component) : Except Fault (List Story) := do
  let texts ← component.textProps.mapM textProperty
  let withImage : List Story := if component.hasAssets then
    [⟨"WithImage",
      [⟨"imageSrc", Text.scriptLiteral placeholderImage⟩,
       ⟨"imageAlt", Text.scriptLiteral (component.name ++ " image")⟩]⟩] else []
  return ⟨"Default", texts⟩ :: withImage ++
    [⟨"WithCustomClass", [⟨"className", Text.scriptLiteral "custom-variant"⟩]⟩]

/-- The text of a component's catalog file. -/
def catalog (component : Component) : Except Fault Text := do
  let name := component.name
  let display ← displayText component
  let stories ← stories component
  return unlines (
    (["import React from 'react';",
     "import \x7b " ++ name ++ " \x7d from './" ++ name ++ "';",
     "",
     "/**",
     " * " ++ name ++ " Component Stories",
     " * Auto-generated from Figma",
     " */",
     "export default \x7b",
     "  title: 'Components/" ++ name ++ "',",
     "  component: " ++ name ++ ",",
     "  parameters: \x7b",
     "    docs: \x7b",
     "      description: \x7b",
     "        component: " ++ Text.scriptLiteral display ++ ",",
     "      \x7d,",
     "    \x7d,",
     "  \x7d,",
     "  argTypes: " ++ argTypesText (argTypes component) ++ ",",
     "\x7d;",
     "",
     "const Template = (args) => <" ++ name ++ " \x7b...args\x7d />;"] : Lines) ++
    stories.flatMap Story.lines ++ ([""] : Lines))

end Handoff.Render
