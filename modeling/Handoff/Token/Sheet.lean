import Handoff.Render.Markup
import Handoff.Token.Group

/-!
The style files of the tokens: each token as a custom property of the page and as a variable of
the style sheets, and a partial with fixed values of its own.
-/

namespace Handoff.Token

open Render

/-- The lines of the groups that have tokens: a heading, the tokens, an empty line. -/
def groupLines (tokens : Tokens) (heading : Text) (line : Text → Text → Text) :
    List Text :=
  Group.all.flatMap fun group =>
    match tokens.group group with
    | [] => []
    | entries =>
      (heading ++ group.label) :: (entries.map fun e => line e.1 e.2) ++ ([""] : Lines)

/-- A token as a custom property. -/
def propertyLine (name value : Text) : Text := "  --" ++ name ++ ": " ++ value ++ ";"

/-- A token as a variable. -/
def variableLine (name value : Text) : Text := "$" ++ name ++ ": " ++ value ++ ";"

/-- The text of the tokens file. -/
def tokensSheet (tokens : Tokens) : Text :=
  unlines (
    (["/**",
     " * Design Tokens",
     " * Auto-generated from Figma",
     " * Do not edit manually",
     " */",
     "",
     "// Export tokens as CSS custom properties",
     ":root \x7b"] : Lines) ++
    groupLines tokens "  // " propertyLine ++
    (["\x7d", "", "// SCSS Variables", ""] : Lines) ++
    groupLines tokens "// " variableLine)

/-- The custom properties of the partial. -/
def sharedProperties : List (List (Text × Text)) :=
  [[("spacing-xs", "0.25rem"), ("spacing-sm", "0.5rem"), ("spacing-md", "1rem"),
    ("spacing-lg", "1.5rem"), ("spacing-xl", "2rem")],
   [("font-family", "-apple-system, BlinkMacSystemFont, 'Segoe UI', 'Roboto', sans-serif"),
    ("font-size-sm", "0.875rem"), ("font-size-md", "1rem"), ("font-size-lg", "1.25rem"),
    ("font-size-xl", "1.5rem")],
   [("color-primary", "#007bff"), ("color-secondary", "#6c757d"), ("color-success", "#28a745"),
    ("color-danger", "#dc3545"), ("color-warning", "#ffc107"), ("color-info", "#17a2b8")]]

/-- The text of the partial, which loads the tokens file first. -/
def variablesSheet (tokensImport : Text) : Text :=
  unlines (
    (["// Design System Variables",
     "// Auto-generated from Figma",
     "",
     "// Import main tokens",
     "@use '" ++ tokensImport ++ "';",
     "",
     "// CSS Variables",
     ":root \x7b"] : Lines) ++
    (List.intercalate ([""] : Lines) (sharedProperties.map fun block =>
      block.map fun e => propertyLine e.1 e.2)) ++
    (["\x7d", ""] : Lines))

end Handoff.Token
