import Handoff.Design.Role
import Handoff.Naming.Rules

/-!
File names of exported pictures and the identifiers that stand for them in scripts.

A file name is the slug of the layer's name and the layer's id, so layers of one name have
different files.
-/

namespace Handoff.Asset

open Design Naming

/-- The characters of an id that stand in a file name as they are. -/
def isFileChar (c : CodePoint) : Bool := Text.isWordChar c || c == '_' || c == '-'

/-- An id as part of a file name: every other character becomes a hyphen. -/
def fileId (id : Text) : Text :=
  Text.ofList (id.toList.map fun c => if isFileChar c then c else '-')

/-- The id of a layer as part of a file name. -/
def fileIdOf (id : Value) : Except Fault Text := do return fileId (← id.asText .wrongType)

/-- The file name of a layer's picture. -/
def fileName (layer : Layer) (format : ExportFormat) : Except Fault Text := do
  let slug ← slugOf layer.name
  let id ← fileIdOf layer.id
  let lead : Text := if slug.isEmpty then "asset" else slug
  return lead ++ "-" ++ id ++ "." ++ format.name

/-- The identifier under which a script imports a file. -/
def handle (file : Text) : Text :=
  let name := file.toList.map fun c => if Text.isWordChar c then c else '_'
  let startsWithDigit := match name with
    | c :: _ => '0' ≤ c && c ≤ '9'
    | [] => false
  (if startsWithDigit then "asset_" else "") ++ Text.ofList name

/-- The files of exported layers, by layer id; nothing for a layer whose export failed. -/
abbrev FileMap := Table Key (Option Text)

/-- The file of an element's picture, if it was exported. -/
def FileMap.file? (files : FileMap) (key : Key) : Option Text :=
  match files.lookup key with
  | some (some file) => if file.isEmpty then none else some file
  | _ => none

end Handoff.Asset
