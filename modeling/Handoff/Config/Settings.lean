import Handoff.Data.Number
import Handoff.Files.Path

/-!
Settings: what a run needs, put together from the command line, the configuration and the
environment, the first of them that says something counting.

A number in the configuration that is unusable gives way to its default; a missing token or file
key is a fault.
-/

namespace Handoff.Config

open Files Numeric

/-- The settings of a run. -/
structure Settings where
  token : Value
  fileKey : Value
  rootDir : Path
  tokensDir : Path
  assetsDir : Path
  componentsDir : Path
  twigDir : Path
  timeout : Value
  batchSize : Int
  rasterScale : Value
  downloadWorkers : Int

/-- The environment: names with values. -/
abbrev Environment := List (Text × Text)

/-- A section of the configuration, empty when absent. -/
def sectionOf (config : Value) (name : Text) : Except Fault Value := do
  return (← config.field name).orElse (.record [])

/-- The number at a name of a section; nothing for another value, a truth value included. -/
def numberAt? (fields : Value) (name : Text) : Except Fault (Option Number) := do
  match ← fields.field name with
  | .int n => return some (.int n)
  | .double x => return some (.double x)
  | _ => return none

/-- The number at a name of a section as a double, with a default. -/
def doubleAt (fields : Value) (name : Text) (default : Value) : Except Fault Value := do
  match ← numberAt? fields name with
  | some n => return .double (← n.toBinary64)
  | none => return default

/-- The number at a name of a section as a whole number of at least 1, with a default. -/
def countAt (fields : Value) (name : Text) (default : Int) : Except Fault Int := do
  match ← numberAt? fields name with
  | some n => return max 1 (← n.truncate)
  | none => return max 1 default

/-- A value as a path. -/
def pathOf (value : Value) : Except Fault Path := do return .parse (← value.asText .wrongType)

/-- The directory at a name of the output section, below the root, with a default. -/
def directoryAt (output : Value) (root : Path) (name default : Text) : Except Fault Path := do
  return root.join (← pathOf ((← output.field? name).getD (.text default)))

/-- The environment as a record. -/
def Environment.fields (env : Environment) : Fields := env.map fun entry => (entry.1, .text entry.2)

/-- Puts the settings together. -/
def Settings.resolve (config : Value) (env : Fields) (fileKey outputRoot : Value) :
    Except Fault Settings := do
  let fromEnvironment (name : Text) : Value := (env.lookup name).getD .null
  let service ← sectionOf config "figma"
  let output ← sectionOf config "output"
  let exports ← sectionOf config "export"
  let token := (← service.field "personalAccessToken").orElse (fromEnvironment "FIGMA_TOKEN")
  let ownKey ← if fileKey.truthy then pure fileKey else service.field "fileKey"
  let fileKey := ownKey.orElse (fromEnvironment "FIGMA_FILE_KEY")
  if !token.truthy then throw .noToken
  if !fileKey.truthy then throw .noFileKey
  let root ← if outputRoot.truthy then pure outputRoot else output.field "root"
  let rootDir ← pathOf (root.orElse (.text "."))
  return {
    token
    fileKey
    rootDir
    tokensDir := ← directoryAt output rootDir "tokens" "src/styles"
    assetsDir := ← directoryAt output rootDir "assets" "src/assets/figma"
    componentsDir := ← directoryAt output rootDir "components" "src/components"
    twigDir := ← directoryAt output rootDir "twig" "twig-templates"
    timeout := ← doubleAt service "timeout" (.double (.finite 30))
    batchSize := ← countAt exports "batchSize" 100
    rasterScale := ← doubleAt exports "rasterScale" (.int 2)
    downloadWorkers := ← countAt exports "downloadWorkers" 8 }

end Handoff.Config
