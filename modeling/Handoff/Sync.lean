import Handoff.Asset.Export
import Handoff.Component.Annotation
import Handoff.Component.Artifacts
import Handoff.Component.Outline
import Handoff.Design.Components
import Handoff.Design.Reading
import Handoff.Naming.Component
import Handoff.Token.Harvest
import Handoff.Token.Sheet
import Handoff.Token.Variables

/-!
A synchronisation: from the design file to tokens, pictures and components on disk.

The tokens come first, then the pictures, then the components, which refer to the pictures that
were exported. Each component is written as soon as it has been rendered.
-/

namespace Handoff

open Asset Config Design Files Naming Remote Render Token

/-- Which parts of a run are wanted. -/
structure SyncOptions where
  tokensOnly : Bool
  componentsOnly : Bool
  assetsOnly : Bool
  twig : Bool
deriving DecidableEq

namespace SyncOptions

/-- Whether tokens are written. -/
def runsTokens (options : SyncOptions) : Bool := !options.componentsOnly && !options.assetsOnly

/-- Whether components are written. -/
def runsComponents (options : SyncOptions) : Bool := !options.tokensOnly && !options.assetsOnly

/-- Whether pictures are exported; components need them too. -/
def runsAssets (options : SyncOptions) : Bool := !options.tokensOnly

end SyncOptions

/-- What a run reports at its end. -/
structure SyncReport where
  documentName : Value
  tokenCount : Nat
  components : List Text
  assets : List Asset.Record
  filesWritten : Nat
  filesSkipped : Nat

namespace SyncReport

/-- The number of pictures exported. -/
def assetsExported (report : SyncReport) : Nat :=
  (report.assets.filter fun record => record.file.isSome).length

/-- The number of pictures that were not exported. -/
def assetsFailed (report : SyncReport) : Nat := report.assets.length - report.assetsExported

end SyncReport

/-- No variables. -/
def noVariables : Value :=
  .record [("meta", .record [("variables", .record []), ("variableCollections", .record [])])]

/-- The number of elements of a table of variables, before it is known to be one. -/
def sizeOfTable : Value → Except Fault Nat
  | .record fields => .ok fields.length
  | .list items => .ok items.length
  | .text s => .ok s.length
  | _ => .error .wrongType

/-- Asks for the design variables; a failed request is reported and gives none. -/
def fetchVariables (client : Client) (fileKey : Value) : Action Value := do
  Action.log .info "ℹ Fetching design variables..."
  let ask : Action (Option Value) := do return some (← client.designVariables fileKey)
  let answer ← Action.recover (fun fault => fault.ofRequest || fault.ofContent) ask fun fault => do
    Action.log .warning ("⚠ Could not fetch variables: " ++ fault.message)
    return none
  match answer with
  | none => return noVariables
  | some payload =>
    let size ← Action.ofExcept (do sizeOfTable (← variablesOf payload))
    Action.log .info ("✓ Fetched " ++ toString size ++ " variables")
    return payload

/-- The message about one shared style. -/
def styleNote (id : Text) (style : Value) : Except Fault Text := do
  let kind ← ((← style.field? "styleType").getD (.text "?")).asText .noSuchField
  let name := (← style.field? "name").getD .emptyText
  return "Found " ++ Text.lower kind ++ " style: " ++ name.display ++ " (" ++ id ++ ")"

/-- Mentions shared styles. -/
def noteStyles : Fields → Action Unit
  | [] => return ()
  | (id, style) :: rest => do
    Action.log .debug (← Action.ofExcept (styleNote id style))
    noteStyles rest

/-- Writes the tokens file and counts the tokens. Without variables the tokens come from the
layers. -/
def syncTokens (client : Client) (settings : Settings) (document : Document) : Action Nat := do
  let payload ← fetchVariables client settings.fileKey
  let fromVariables ← Action.ofLogged (extractTokens payload)
  noteStyles (← Action.ofExcept document.styles.fields)
  let tokens ← if fromVariables.isEmpty then do
      Action.log .info "ℹ No variables found, collecting tokens from the document tree"
      Action.ofExcept (harvest document.root.preorder)
    else pure fromVariables
  let _ ← writeText (some settings.rootDir) (settings.tokensDir.child "_tokens.scss")
    (tokensSheet tokens)
  return tokens.count

/-- Writes components in order, with the names given and the roles decided so far. -/
def writeComponents (settings : Settings) (files : FileMap) (withTwig : Bool)
    (names : ComponentNames) (roles : RoleMemo) : List LayerTree → Action (List Text)
  | [] => return []
  | tree :: rest => do
    let (name, names) ← Action.ofExcept (names.resolve .standard tree.label.name)
    let (component, roles) ← Action.ofExcept (annotate .standard roles tree name)
    Action.log .debug ("Naming tree:\n" ++ outline component)
    let here := (← get).workspace.here
    let artifacts ← Action.ofExcept (buildArtifacts settings here files withTwig component)
    writeArtifacts settings artifacts
    Action.log .debug ("Generated component: " ++ name)
    return name :: (← writeComponents settings files withTwig names roles rest)

/-- Writes the partial and all components of a design. -/
def syncComponents (settings : Settings) (root : LayerTree) (files : FileMap) (withTwig : Bool) :
    Action (List Text) := do
  Action.log .info "ℹ Finding components..."
  let components ← Action.ofExcept (findComponents root)
  if components.isEmpty then
    Action.log .warning "⚠ No components found in Figma file"
    return []
  else
    Action.log .info ("ℹ Found " ++ toString components.length ++ " components")
    let here := (← get).workspace.here
    let _ ← writeText (some settings.rootDir) (settings.componentsDir.child "_variables.scss")
      (variablesSheet (tokensImport settings here))
    writeComponents settings files withTwig (.initial .standard) [] components

/-- One run from the request for the file to the report. -/
def sync (client : Client) (settings : Settings) (options : SyncOptions) : Action SyncReport := do
  Action.log .info "ℹ Fetching Figma file..."
  let file ← client.file settings.fileKey
  let document ← Action.ofExcept (Document.read file)
  Action.log .info ("✓ Fetched file: " ++ document.name.display)
  let tokenCount ← if options.runsTokens then syncTokens client settings document else pure 0
  let assets ← if options.runsAssets then
      Exporter.exportAll ⟨client, settings, some settings.rootDir⟩ document.root.preorder
    else pure []
  let components ← if options.runsComponents then do
      let files ← Action.ofExcept (filesOf assets)
      syncComponents settings document.root files options.twig
    else pure []
  let world ← get
  return {
    documentName := document.name
    tokenCount
    components
    assets
    filesWritten := world.written.length
    filesSkipped := world.skipped.length }

end Handoff
