import Handoff.Data.Table
import Handoff.Fault
import Handoff.Numeric.Decimal

/-!
Values of the design file format: JSON, with integers and doubles kept apart and the fields of a
record in their order.

A layer's fields come from outside and are used as they are; each use states what it needs
(`field?`, `elements`, `key`, `asText`) and faults otherwise.
-/

namespace Handoff

open Numeric

/-- A value of the file format. -/
inductive Value where
  | null
  | bool (b : Bool)
  | int (n : Int)
  | double (x : Binary64)
  | text (s : Text)
  | list (items : List Value)
  | record (fields : List (Text × Value))

/-- The fields of a record. -/
abbrev Fields := List (Text × Value)

/-- What a table can be keyed by. Numbers that are equal are one key, truth values being 0 and
1. -/
inductive Key where
  | null
  | int (n : Int)
  | double (x : Binary64)
  | text (s : Text)
deriving DecidableEq

namespace Key

/-- The key of a double: that of the integer when it is whole. -/
def ofDouble (x : Binary64) : Key :=
  match x.toRat? with
  | some q => if q.den = 1 then .int q.num else .double x
  | none => .double x

/-- Whether two keys compare as equal; what is no number equals nothing. -/
def same (a b : Key) : Bool := a = b && a ≠ .double .nan

end Key

namespace Value

/-- The empty text. -/
def emptyText : Value := .text ""

/-- Whether the value counts as present: not null, false, zero or empty. -/
def truthy : Value → Bool
  | null => false
  | bool b => b
  | int n => n != 0
  | double x => !x.isZero
  | text s => !s.isEmpty
  | list items => !items.isEmpty
  | record fields => !fields.isEmpty

/-- The value if it counts as present, else the other. -/
def orElse (value other : Value) : Value := if value.truthy then value else other

/-- Whether the value is a given text. -/
def isText (value : Value) (s : Text) : Bool :=
  match value with
  | text t => t = s
  | _ => false

/-- Whether the value is null. -/
def isNull : Value → Bool
  | null => true
  | _ => false

/-- The fields of a record; nothing else has fields. -/
def fields : Value → Except Fault Fields
  | record fields => .ok fields
  | _ => .error .noSuchField

/-- A field of a record, if it is there. -/
def field? (value : Value) (name : Text) : Except Fault (Option Value) := do
  return (← value.fields).lookup name

/-- A field of a record, null when it is missing. -/
def field (value : Value) (name : Text) : Except Fault Value := do
  return ((← value.fields).lookup name).getD null

/-- The text of a text value, with the fault of any other. -/
def asText (fault : Fault) : Value → Except Fault Text
  | text s => .ok s
  | _ => .error fault

/-- The elements one by one: of a list its items, of a record its names, of a text its
characters. -/
def elements : Value → Except Fault (List Value)
  | list items => .ok items
  | record fields => .ok (fields.map fun f => .text f.1)
  | text s => .ok (s.toList.map fun c => .text (Text.ofList [c]))
  | _ => .error .wrongType

/-- The value as a key; lists and records are none. -/
def key : Value → Except Fault Key
  | null => .ok .null
  | bool b => .ok (.int (if b then 1 else 0))
  | int n => .ok (.int n)
  | double x => .ok (.ofDouble x)
  | text s => .ok (.text s)
  | list _ => .error .wrongType
  | record _ => .error .wrongType

/-- Whether the value is in a set of texts. -/
def isOneOf (value : Value) (texts : List Text) : Except Fault Bool := do
  match ← value.key with
  | .text s => return texts.contains s
  | _ => return false

/-- The entry of a table of texts that the value names. -/
def entryOf? {α : Type} (value : Value) (table : List (Text × α)) : Except Fault (Option α) := do
  match ← value.key with
  | .text s => return table.lookup s
  | _ => return none

mutual

/-- The value as it is shown inside a list or a record: texts between quotes. -/
def shown : Value → Text
  | null => "None"
  | bool b => if b then "True" else "False"
  | int n => toString n
  | double x => x.toText
  | text s => Text.shown s
  | list items => "[" ++ Text.intercalate ", " (shownItems items) ++ "]"
  | record fields => "\x7b" ++ Text.intercalate ", " (shownFields fields) ++ "\x7d"

/-- The items as they are shown. -/
def shownItems : List Value → List Text
  | [] => []
  | item :: rest => item.shown :: shownItems rest

/-- The fields as they are shown. -/
def shownFields : List (Text × Value) → List Text
  | [] => []
  | (name, item) :: rest => (Text.shown name ++ ": " ++ item.shown) :: shownFields rest

end

/-- The value as text: a text is itself, anything else as it is shown. -/
def display : Value → Text
  | text s => s
  | value => value.shown

/-- The name of the value's type, as configuration messages use it. -/
def typeName : Value → Text
  | null => "NoneType"
  | bool _ => "bool"
  | int _ => "int"
  | double _ => "float"
  | text _ => "str"
  | list _ => "list"
  | record _ => "dict"

end Value

end Handoff
