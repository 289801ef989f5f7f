import Handoff.Asset.FileName
import Handoff.Component.Annotated

/-!
Markup: the nested boxes, texts and pictures that stand for the elements of a component.

Markup is a tree of tags, of the same shape as the elements it stands for. The template and the
twig file are two ways to fill in the tags; both are printed by `Markup.lines`.
-/

namespace Handoff.Render

open Asset Design

/-- The text between braces. -/
def braced (text : Text) : Text := "\x7b" ++ text ++ "\x7d"

/-- The text between double quotes. -/
def quoted (text : Text) : Text := "\"" ++ text ++ "\""

/-- A line at a depth of two blanks a level. -/
def indented (depth : Nat) (line : Text) : Text :=
  Text.ofList (List.replicate (2 * depth) ' ') ++ line

/-- The lines joined, with a line end between them. -/
def unlines (lines : List Text) : Text := Text.intercalate "\n" lines

/-- What a tag shows. -/
inductive Content where
  /-- A box around the children, or an empty one. -/
  | box
  /-- A line of text. -/
  | span (text : Text)
  /-- A picture with the values of its source and description attributes. -/
  | picture (source description : Text)
  /-- A picture whose source may turn out to be missing: then an empty box. -/
  | pictureIf (source description : Text)

/-- One element of markup. -/
structure Tag where
  cssClass : Text
  content : Content

/-- Trees of tags side by side. -/
abbrev Markup := Forest Tag

/-- The class attribute of a dialect of markup. -/
structure Dialect where
  classAttribute : Text

namespace Dialect

/-- The class attribute with its value. -/
def classOf (dialect : Dialect) (cssClass : Text) : Text :=
  dialect.classAttribute ++ "=" ++ quoted cssClass

/-- A tag that opens a box. -/
def openBox (dialect : Dialect) (cssClass : Text) : Text :=
  "<div " ++ dialect.classOf cssClass ++ ">"

/-- An empty box. -/
def emptyBox (dialect : Dialect) (cssClass : Text) : Text :=
  dialect.openBox cssClass ++ "</div>"

/-- A picture. -/
def picture (dialect : Dialect) (source description cssClass : Text) : Text :=
  "<img src=" ++ source ++ " alt=" ++ description ++ " " ++ dialect.classOf cssClass ++ " />"

/-- The lines of a tag without children. -/
def leafLines (dialect : Dialect) (tag : Tag) : List Text :=
  match tag.content with
  | .box => [dialect.emptyBox tag.cssClass]
  | .span text => ["<span " ++ dialect.classOf tag.cssClass ++ ">" ++ text ++ "</span>"]
  | .picture source description => [dialect.picture source description tag.cssClass]
  | .pictureIf source description =>
    ["\x7b" ++ source ++ " ? (",
     "  " ++ dialect.picture (braced source) description tag.cssClass,
     ") : (",
     "  " ++ dialect.emptyBox tag.cssClass,
     ")\x7d"]

end Dialect

mutual

/-- The lines of a tree of tags at a depth. -/
def treeLines (dialect : Dialect) (depth : Nat) : Tree Tag → List Text
  | .node tag [] => (dialect.leafLines tag).map (indented depth)
  | .node tag (t :: ts) =>
    indented depth (dialect.openBox tag.cssClass) ::
      (treeLines dialect (depth + 1) t ++ forestLines dialect (depth + 1) ts) ++
      [indented depth "</div>"]

/-- The lines of trees side by side. -/
def forestLines (dialect : Dialect) (depth : Nat) : Forest Tag → List Text
  | [] => []
  | t :: ts => treeLines dialect depth t ++ forestLines dialect depth ts

end

/-- What describes a picture: the layer's name, or a word for its kind. -/
def description (element : Element) : Except Fault Text :=
  if element.layer.name.truthy then element.layer.name.asText .noSuchField
  else .ok (if element.role = .vectorAsset then "icon" else "asset")

mutual

/-- The markup of a tree of elements, given the tag of each. Only containers show what is inside
them. -/
def markupTree (tag : Element → Except Fault Tag) : Tree Element → Except Fault (Tree Tag)
  | .node element children => do
    let top ← tag element
    if element.role = .container then return .node top (← markupForest tag children)
    else return .node top []

/-- The markup of trees of elements side by side. -/
def markupForest (tag : Element → Except Fault Tag) : Forest Element → Except Fault Markup
  | [] => .ok []
  | t :: ts => do
    let first ← markupTree tag t
    return first :: (← markupForest tag ts)

end

end Handoff.Render
