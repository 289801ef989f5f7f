import Handoff.Config.Settings
import Handoff.Files.Writer
import Handoff.Render.Catalog
import Handoff.Render.Stylesheet
import Handoff.Render.Template
import Handoff.Render.Twig

/-!
The files of one component: template, style sheet, catalog and perhaps a twig file.

All of them are rendered before the first is written, so a component that cannot be rendered leaves
no files.
-/

namespace Handoff

open Asset Config Files Render

/-- The generated files of a component. -/
structure ArtifactSet where
  componentName : Text
  template : Text
  stylesheet : Text
  catalog : Text
  twig : Option Text

/-- Where twig files look for pictures. -/
def twigAssetsPath : Text := "assets/figma"

/-- The directory of a component. -/
def componentDir (settings : Settings) (name : Text) : Path := settings.componentsDir.child name

/-- The path under which a component's template imports pictures. -/
def assetsImport (settings : Settings) (here : Location) (name : Text) : Text :=
  (relativePath here settings.assetsDir (componentDir settings name)).text

/-- The path under which the partial loads the tokens file. -/
def tokensImport (settings : Settings) (here : Location) : Text :=
  (relativePath here (settings.tokensDir.child "tokens") settings.componentsDir).text

/-- Renders all files of a component. -/
def buildArtifacts (settings : Settings) (here : Location) (files : FileMap) (withTwig : Bool)
    (component : Component) : Except Fault ArtifactSet := do
  let template ← template files component (assetsImport settings here component.name)
  let stylesheet ← stylesheet files component
  let catalog ← catalog component
  let twig ← if withTwig then some <$> twig files twigAssetsPath component else pure none
  return { componentName := component.name, template, stylesheet, catalog, twig }

/-- Writes the files of a component. -/
def writeArtifacts (settings : Settings) (artifacts : ArtifactSet) : Action Unit := do
  let name := artifacts.componentName
  let dir := componentDir settings name
  let root := some settings.rootDir
  let _ ← writeText root (dir.child (name ++ ".jsx")) artifacts.template
  let _ ← writeText root (dir.child (name ++ ".scss")) artifacts.stylesheet
  let _ ← writeText root (dir.child (name ++ ".stories.jsx")) artifacts.catalog
  match artifacts.twig with
  | some twig =>
    let _ ← writeText root (settings.twigDir.child (name ++ ".html.twig")) twig
  | none => pure ()

end Handoff
