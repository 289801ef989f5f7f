import Handoff.Config.Settings
import Handoff.Data.Json.Reading
import Handoff.Files.Workspace
import Handoff.Journal

/-!
Reading and checking the configuration file.

The check only warns: unknown fields, sections that are no records, numbers that are none, and
batches too large for the service. Nothing in a record of records stops it.
-/

namespace Handoff.Config

open Files

/-- The configuration file unless another is given. -/
def defaultPath : Text := "figma-codegen.config.json"

/-- The sections with their known fields, in alphabetical order. -/
def knownSections : List (Text × List Text) :=
  [("figma", ["fileKey", "personalAccessToken", "timeout"]),
   ("output", ["assets", "components", "root", "tokens", "twig"]),
   ("export", ["batchSize", "downloadWorkers", "rasterScale"])]

/-- The known sections in alphabetical order. -/
def knownNames : List Text := ["export", "figma", "output"]

/-- The fields that hold numbers, in alphabetical order. -/
def numericFields : List (Text × Text) :=
  [("export", "batchSize"), ("export", "downloadWorkers"), ("export", "rasterScale"),
   ("figma", "timeout")]

/-- The largest number of layers that the service takes in one request. -/
def largestBatch : Int := 100

/-- A warning about the configuration. -/
def warning (text : Text) : Message := ⟨.warning, "⚠ [config] " ++ text⟩

/-- The list of known fields in a warning. -/
def knownText (names : List Text) : Text := "（已知欄位：" ++ Text.intercalate ", " names ++ "）"

/-- Warnings about unknown sections. -/
def unknownSections (fields : Fields) : List Message :=
  (fields.filter fun f => !knownNames.contains f.1).map fun f =>
    warning ("未知頂層欄位 '" ++ f.1 ++ "'" ++ knownText knownNames)

/-- Warnings about one section. -/
def sectionWarnings (name : Text) (known : List Text) : Value → List Message
  | .record fields =>
    (fields.filter fun f => !known.contains f.1).map fun f =>
      warning ("[" ++ name ++ "] 未知欄位 '" ++ f.1 ++ "'" ++ knownText known)
  | value => [warning ("[" ++ name ++ "] 應為 JSON 物件，目前是 " ++ value.typeName)]

/-- Warnings about the sections that are present. -/
def presentSections (fields : Fields) : List Message :=
  knownSections.flatMap fun entry =>
    match fields.lookup entry.1 with
    | some value => sectionWarnings entry.1 entry.2 value
    | none => []

/-- Whether a value can stand where a number belongs. -/
def isNumeric : Value → Bool
  | .null => true
  | .int _ => true
  | .double _ => true
  | _ => false

/-- The field of a section that is a record. -/
def fieldIn (fields : Fields) (sectionName name : Text) : Value :=
  match fields.lookup sectionName with
  | some (.record inner) => (inner.lookup name).getD .null
  | _ => .null

/-- Warnings about fields that hold no number where one belongs. -/
def numericWarnings (fields : Fields) : List Message :=
  numericFields.filterMap fun entry =>
    let value := fieldIn fields entry.1 entry.2
    if isNumeric value then none
    else some (warning (entry.1 ++ "." ++ entry.2 ++ " 應為數字，目前是 " ++ value.typeName))

/-- Warnings about a batch size beyond the service's limit. -/
def batchWarnings (size : Value) : List Message :=
  match size with
  | .int n =>
    if largestBatch < n then
      [warning ("export.batchSize " ++ toString n ++ " 超過建議上限 100，Figma 可能拒絕過長的 ids 參數")]
    else []
  | _ => []

/-- Checks the fields of a configuration. -/
def checkFields (fields : Fields) : Except Fault (List Message) := do
  let exports := ((fields.lookup ("export" : Text)).getD .null).orElse (.record [])
  let size ← exports.field "batchSize"
  return unknownSections fields ++ presentSections fields ++ numericWarnings fields ++
    batchWarnings size

/-- Checks a configuration. A value that is no record has no sections, and its elements are looked
at as names before that shows. -/
def check (config : Value) : Except Fault (List Message) := do
  match config with
  | .record fields => checkFields fields
  | config =>
    if !config.truthy then return []
    let names ← config.elements
    let _ ← names.mapM Value.key
    throw .noSuchField

/-- Reads the configuration file; a missing file is an empty configuration. -/
def load (w : Workspace) (path : Text) : Logged Value := do
  let file := Path.parse path
  if !(← Logged.ofExcept (w.doesExist file)) then return .record []
  let content ← Logged.ofExcept (w.read file)
  match String.fromUTF8? content with
  | none => throw .undecodable
  | some text =>
    match ← Logged.ofExcept (Json.read .standard .malformedConfig text) with
    | .record fields =>
      let messages ← Logged.ofExcept (check (.record fields))
      messages.forM fun m => Logged.log m.level m.text
      return .record fields
    | _ =>
      Logged.log .warning ("⚠ [config] '" ++ path ++ "' 格式錯誤，應為 JSON 物件，回傳空設定。")
      return .record []

end Handoff.Config
