import Handoff.Data.Value
import Handoff.Text.Pascal
import Handoff.Text.Slug

/-!
Rules for names that must be unique: what stands in for a label without usable characters, and the
search for the first free name.
-/

namespace Handoff.Naming

/-- What the namers put in place of unusable labels, and which component names are taken from the
start. -/
structure Rules where
  fallbackComponent : Text
  /-- Put in front of a component name that would start with a digit. -/
  digitLead : Text
  fallbackElement : Text
  /-- The first number that tells components of one name apart. -/
  firstSuffix : Int
  reserved : List Text

/-- The rules unless others are given. The reserved names are identifiers of the catalog file. -/
def Rules.standard : Rules where
  fallbackComponent := "Unnamed"
  digitLead := "Component"
  fallbackElement := "el"
  firstSuffix := 2
  reserved := ["React", "Template", "Default", "WithImage", "WithCustomClass"]

/-- The first of `candidate k`, `candidate (k + 1)`, … that is not taken. The last argument bounds
the candidates that may be taken. -/
def firstFree (taken : Text → Bool) (candidate : Int → Text) (k : Int) : Nat → Text
  | 0 => candidate k
  | bound + 1 =>
    if taken (candidate k) then firstFree taken candidate (k + 1) bound else candidate k

/-- The slug of a label that may be absent. -/
def slugOf (label : Value) : Except Fault Text := do
  return Text.slug (← (label.orElse .emptyText).asText .noSuchField)

/-- The Pascal case of a label that may be absent. -/
def pascalOf (label : Value) : Except Fault Text := do
  return Text.pascal (← (label.orElse .emptyText).asText .wrongType)

end Handoff.Naming
