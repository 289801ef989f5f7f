import Handoff.Data.Value
import Handoff.Text.Literal

/-!
Writing JSON text in ASCII, with a blank after every comma and colon.
-/

namespace Handoff.Json

open Numeric

/-- A sixteen-bit unit as an escape. -/
def unitEscape (n : Nat) : List Char := '\\' :: 'u' :: Text.hex 4 n

/-- How one character is written; beyond ASCII as one escape, or two for what exceeds sixteen
bits. -/
def escapeChar (c : Char) : List Char :=
  let n := c.toNat
  if c = '"' || c = '\\' then ['\\', c]
  else if c = '\n' then ['\\', 'n']
  else if c = '\r' then ['\\', 'r']
  else if c = '\t' then ['\\', 't']
  else if n = 8 then ['\\', 'b']
  else if n = 12 then ['\\', 'f']
  else if 32 ≤ n && n < 127 then [c]
  else if n < 0x10000 then unitEscape n
  else unitEscape (0xD800 + (n - 0x10000) / 0x400) ++ unitEscape (0xDC00 + (n - 0x10000) % 0x400)

/-- How one code point is written; a surrogate as an escape. -/
def escapeCodePoint : CodePoint → List Char
  | .char c => escapeChar c
  | .surrogate index => unitEscape (CodePoint.surrogate index).toNat

/-- A string. -/
def string (text : Text) : String :=
  String.ofList ('"' :: text.toList.flatMap escapeCodePoint ++ ['"'])

/-- A number; what is no finite number is written by name. -/
def number (x : Binary64) : String :=
  match x with
  | .infinite negative => if negative then "-Infinity" else "Infinity"
  | .nan => "NaN"
  | x => x.toText

mutual

/-- The text of a value. -/
def write : Value → String
  | .null => "null"
  | .bool b => if b then "true" else "false"
  | .int n => toString n
  | .double x => number x
  | .text s => string s
  | .list items => "[" ++ ", ".intercalate (writeItems items) ++ "]"
  | .record fields => "\x7b" ++ ", ".intercalate (writeFields fields) ++ "\x7d"

/-- The texts of items. -/
def writeItems : List Value → List String
  | [] => []
  | item :: rest => write item :: writeItems rest

/-- The texts of fields. -/
def writeFields : List (Text × Value) → List String
  | [] => []
  | (name, item) :: rest => (string name ++ ": " ++ write item) :: writeFields rest

end

end Handoff.Json
