import Handoff.Render.Markup
import Handoff.Text.Quoted

/-!
Twig files: the markup of a component for a server-side theme. Classes are put together from the
variable `base_class`; texts are fields of the content.
-/

namespace Handoff.Render

open Asset Design

/-- The class attribute of plain markup. -/
def plainDialect : Dialect := ⟨"class"⟩

/-- A printed expression. -/
def printed (expression : Text) : Text := "\x7b\x7b " ++ expression ++ " \x7d\x7d"

/-- The class of an element, put together when the page is made. -/
def twigClass (element : Element) : Text := printed "base_class" ++ "__" ++ element.elementClass

/-- The tag of an element in a twig file. -/
def twigTag (files : FileMap) (assetsPath : Text) (element : Element) : Except Fault Tag := do
  let cssClass := twigClass element
  if element.isAsset then
    match files.file? element.key with
    | some file =>
      let alt := Text.escapeMarkup (← description element)
      let source := printed ("file_url('" ++ assetsPath ++ "/" ++ file ++ "')")
      return ⟨cssClass, .picture (quoted source) (quoted alt)⟩
    | none => return ⟨cssClass, .box⟩
  else match element.slot with
    | some slot => return ⟨cssClass, .span (printed ("content.field_" ++ slotName slot))⟩
    | none => return ⟨cssClass, .box⟩

/-- The markup of a component in its twig file. -/
def twigMarkup (files : FileMap) (assetsPath : Text) (component : Component) :
    Except Fault Markup :=
  markupForest (twigTag files assetsPath) component.forest

/-- The text of a component's twig file. -/
def twig (files : FileMap) (assetsPath : Text) (component : Component) : Except Fault Text := do
  let markup ← twigMarkup files assetsPath component
  return unlines (
    [printed ("attach_library('frontend/" ++ component.cssClass ++ "')"),
     "",
     "\x7b% set base_class = '" ++ component.cssClass ++ "' %\x7d",
     "",
     "<div class=\"" ++ printed "base_class" ++ "\">"] ++
    forestLines plainDialect 1 markup ++ (["</div>", ""] : Lines))

end Handoff.Render
