/-!
Texts that are not JSON: what is wrong with them, where, and how it is said.
-/

namespace Handoff.Json

/-- What is wrong with a text that is not JSON. -/
inductive Flaw where
  /-- There is no value where one belongs. -/
  | noValue
  /-- There is no name where a field begins. -/
  | noName
  | noColon
  | noComma
  | unclosedString
  | controlCharacter
  | unknownEscape
  /-- An escaped code unit is not four hexadecimal digits. -/
  | malformedUnit
  /-- Text follows the value. -/
  | extraText
  | byteOrderMark
deriving DecidableEq

/-- The wording of a flaw. -/
def Flaw.message : Flaw → String
  | noValue => "Expecting value"
  | noName => "Expecting property name enclosed in double quotes"
  | noColon => "Expecting ':' delimiter"
  | noComma => "Expecting ',' delimiter"
  | unclosedString => "Unterminated string starting at"
  | controlCharacter => "Invalid control character at"
  | unknownEscape => "Invalid \\escape"
  | malformedUnit => "Invalid \\uXXXX escape"
  | extraText => "Extra data"
  | byteOrderMark => "Unexpected UTF-8 BOM (decode using utf-8-sig)"

/-- A place in a text. Lines and columns are numbered from 1; the offset counts the characters
before the place. -/
structure Place where
  line : Nat
  column : Nat
  offset : Nat
deriving DecidableEq

namespace Place

/-- The place of the first character. -/
def start : Place := ⟨1, 1, 0⟩

/-- The place after a character. -/
def next (place : Place) (c : Char) : Place :=
  if c = '\n' then ⟨place.line + 1, 1, place.offset + 1⟩
  else ⟨place.line, place.column + 1, place.offset + 1⟩

/-- The place after the given characters. -/
def after (read : List Char) : Place := read.foldl next start

/-- A place as messages name it. -/
def text (place : Place) : String :=
  "line " ++ toString place.line ++ " column " ++ toString place.column ++ " (char " ++
    toString place.offset ++ ")"

end Place

/-- A flaw at its place. -/
structure FlawAt where
  flaw : Flaw
  place : Place
deriving DecidableEq

/-- The wording of a flaw with its place. -/
def FlawAt.message (found : FlawAt) : String := found.flaw.message ++ ": " ++ found.place.text

end Handoff.Json
