import Handoff.Design.Color
import Handoff.Design.Reading
import Handoff.Journal
import Handoff.Text.Slug
import Handoff.Token.Group
import Std.Data.TreeMap
import Std.Data.TreeSet

/-!
Tokens from design variables.

A variable's value is that of its first mode. An alias stands for the variable it names, along a
chain of any length; a chain that breaks off or comes back to one of its variables has no value.
-/

namespace Handoff.Token

open Design

/-- The name of a token: the slug of the variable's name with slashes as hyphens. -/
def tokenName (name : Text) : Text :=
  Text.slug (Text.ofList (name.toList.map fun c : CodePoint => if c = '/' then '-' else c))

/-- Whether a text occurs in another. -/
def occursIn (part : List CodePoint) : List CodePoint → Bool
  | [] => part.isEmpty
  | c :: rest => part.isPrefixOf (c :: rest) || occursIn part rest

/-- Whether one of some words occurs in a text. -/
def mentions (text : Text) (words : List Text) : Bool :=
  words.any fun word => occursIn word.toList text.toList

/-- The value of a variable's first mode, null without any. -/
def firstModeValue (entry : Value) : Except Fault Value := do
  let modes ← entry.field "valuesByMode"
  if !modes.truthy then return .null
  match ← modes.fields with
  | first :: _ => return first.2
  | [] => return .null

/-- The id that an alias names; other values are no aliases. -/
def aliasTarget? : Value → Option Value
  | .record fields =>
    if (fieldOf fields "type").isText "VARIABLE_ALIAS" then some (fieldOf fields "id") else none
  | _ => none

/-- A table of variables by id. -/
abbrev Index := Std.TreeMap Text Value

/-- The index of a table; of several entries of one id the first counts. -/
def indexOf : Fields → Index
  | [] => ∅
  | (id, entry) :: rest => (indexOf rest).insert id entry

/-- The index finds what the table holds. -/
theorem getElem?_indexOf (all : Fields) (id : Text) : (indexOf all)[id]? = all.lookup id := by
  induction all with
  | nil => simp [indexOf]
  | cons first rest ih =>
    rw [indexOf, Std.TreeMap.getElem?_insert, ih, List.lookup_cons]
    grind

/-- The variable that an alias names. -/
def target? (index : Index) (id : Value) : Except Fault (Option (Text × Value)) := do
  match ← id.key with
  | .text name => return index[name]?.map fun found => (name, found)
  | _ => return none

/-- Follows aliases; `seen` are the variables on the chain so far, each of which is used once. The
bound is on the length of the chain. -/
def follow (index : Index) (seen : Std.TreeSet Text) (value : Value) : Nat → Except Fault Value
  | 0 => .ok .null
  | bound + 1 =>
    match aliasTarget? value with
    | none => .ok value
    | some id => do
      match ← target? index id with
      | none => return .null
      | some (name, found) =>
        if seen.contains name then return .null
        else follow index (seen.insert name) (← firstModeValue found) bound

/-- The value that a variable stands for; null when there is none. -/
def resolvedValue (index : Index) (id : Text) (entry : Value) : Except Fault Value := do
  follow index {id} (← firstModeValue entry) (index.size + 1)

/-- What a variable contributes. -/
inductive Reading where
  /-- Its name has no usable character. -/
  | unnamed
  /-- It has no value. -/
  | unresolved (name : Text)
  /-- Its value is no colour though its type is. -/
  | colorless
  | token (group : Group) (name value : Text)
deriving DecidableEq

/-- Words in the names of numbers that are distances. -/
def spacingWords : List Text := ["spacing", "space", "gap", "padding", "margin"]

/-- Words in the names of numbers that are sizes of text. -/
def textSizeWords : List Text := ["font-size", "line-height"]

/-- The token of a number: a length in pixels when its name says so. -/
def numberToken (lowered name : Text) (value : Value) : Except Fault Reading := do
  let text ← measure value
  return if mentions lowered spacingWords then .token .spacing name (text ++ "px")
    else if mentions lowered textSizeWords then .token .typography name (text ++ "px")
    else .token .other name text

/-- The token of a text: quoted, and typography when its name mentions a font. -/
def textToken (lowered name : Text) (value : Value) : Reading :=
  .token (if mentions lowered ["font"] then .typography else .other) name
    ("\"" ++ value.display ++ "\"")

/-- The token of a value by the type of its variable. -/
def valueToken (type : Value) (lowered name : Text) (value : Value) : Except Fault Reading := do
  if type.isText "COLOR" then
    match value with
    | .record fields =>
      match ← opaqueColor? (.record fields) with
      | some color => return .token .colors name color
      | none => return .colorless
    | _ => return .colorless
  else if type.isText "FLOAT" then numberToken lowered name value
  else if type.isText "STRING" then return textToken lowered name value
  else match value with
    | .bool b => return .token .other name (if b then "true" else "false")
    | value => return .token .other name value.display

/-- What one variable of a table contributes. -/
def readVariable (index : Index) (id : Text) (entry : Value) : Except Fault Reading := do
  let rawName := ((← entry.field? "name").getD .emptyText)
  let raw ← rawName.asText .noSuchField
  let name := tokenName raw
  if name.isEmpty then return .unnamed
  let value ← resolvedValue index id entry
  if value.isNull then return .unresolved raw
  valueToken (← entry.field "resolvedType") (Text.lower raw) name value

/-- Enters what a variable contributes. -/
def Tokens.add (tokens : Tokens) : Reading → Tokens
  | .token group name value => tokens.put group name value
  | _ => tokens

/-- The tokens that the variables of a table contribute. -/
def Tokens.ofReadings (readings : List Reading) : Tokens := readings.foldl Tokens.add .empty

/-- The table of variables in the answer to a variables request, before it is known to be one. -/
def variablesOf (payload : Value) : Except Fault Value := do
  let info ← payload.field "meta"
  return (← (info.orElse (.record [])).field "variables").orElse (.record [])

/-- Reads variables in order. -/
def readVariables (index : Index) : Fields → Logged (List Reading)
  | [] => return []
  | (id, entry) :: rest => do
    let reading ← Logged.ofExcept (readVariable index id entry)
    match reading with
    | .unresolved name => Logged.log .debug ("Unresolved variable: " ++ name)
    | _ => pure ()
    return reading :: (← readVariables index rest)

/-- The tokens of the answer to a variables request. -/
def extractTokens (payload : Value) : Logged Tokens := do
  let all ← Logged.ofExcept (do (← variablesOf payload).fields)
  let tokens := Tokens.ofReadings (← readVariables (indexOf all) all)
  Logged.log .info ("✓ Extracted " ++ toString tokens.colors.length ++ " color tokens")
  Logged.log .info ("✓ Extracted " ++ toString tokens.typography.length ++ " typography tokens")
  Logged.log .info ("✓ Extracted " ++ toString tokens.spacing.length ++ " spacing tokens")
  return tokens

end Handoff.Token
