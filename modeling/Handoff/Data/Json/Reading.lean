import Handoff.Data.Number

/-!
Reading JSON text.

Beyond the standard, `NaN`, `Infinity` and `-Infinity` are numbers, and the last of several fields
of one name counts. A number without point and exponent is an integer; limits bound its digits and
the nesting of lists and records. The first trouble from the left counts.
-/

namespace Handoff.Json

open Numeric

/-- What is read at most. -/
structure Limits where
  /-- The digits of an integer. -/
  digits : Nat
  /-- Lists and records within each other. -/
  depth : Nat

/-- The limits for files and answers. -/
def Limits.standard : Limits := ⟨Fault.mostDigits, 989⟩

/-- Why reading stops, with the text from the place of a flaw on. -/
inductive Trouble where
  | flaw (flaw : Flaw) (rest : List Char)
  | tooManyDigits (count : Nat)
  | tooDeep

/-- A piece of a text with the text after it. -/
abbrev Piece (α : Type) := α × List Char

/-- The blanks between tokens. -/
def isSpace (c : Char) : Bool := c == ' ' || c == '\t' || c == '\n' || c == '\r'

/-- The text from its first token on. -/
def skipSpace (text : List Char) : List Char := text.dropWhile isSpace

/-- The value of a hexadecimal digit. -/
def hexValue? (c : Char) : Option Nat :=
  if '0' ≤ c ∧ c ≤ '9' then some (c.toNat - 48)
  else if 'a' ≤ c ∧ c ≤ 'f' then some (c.toNat - 87)
  else if 'A' ≤ c ∧ c ≤ 'F' then some (c.toNat - 55)
  else none

/-- The value of four hexadecimal digits. -/
def hex4? (a b c d : Char) : Option Nat := do
  return ((← hexValue? a) * 16 + (← hexValue? b)) * 256 + (← hexValue? c) * 16 + (← hexValue? d)

/-- The character of a one-letter escape. -/
def simpleEscape? (c : Char) : Option Char :=
  if c = '"' || c = '\\' || c = '/' then some c
  else if c = 'b' then some (Char.ofNat 8)
  else if c = 'f' then some (Char.ofNat 12)
  else if c = 'n' then some '\n'
  else if c = 'r' then some '\r'
  else if c = 't' then some '\t'
  else none

/-- The first half of a character written as two escapes. -/
def isHighHalf (unit : Nat) : Bool := 0xD800 ≤ unit && unit < 0xDC00

/-- The second half of a character written as two escapes. -/
def isLowHalf (unit : Nat) : Bool := 0xDC00 ≤ unit && unit < 0xE000

/-- The code points read so far, reversed, with a half that found no partner. -/
def settle (high : Option Nat) (read : List CodePoint) : List CodePoint :=
  match high with
  | some unit => .ofUnit unit :: read
  | none => read

/-- The code points of a string up to its closing quote, and the text after it. `start` is the text
from the opening quote on, `high` the first half of a character whose second half may follow. An
escaped code unit must not end the text. -/
def readString (start : List Char) (high : Option Nat) (read : List CodePoint) :
    List Char → Except Trouble (Piece Text)
  | [] => .error (.flaw .unclosedString start)
  | '"' :: rest => .ok (Text.ofList (settle high read).reverse, rest)
  | '\\' :: 'u' :: a :: b :: c :: d :: e :: rest =>
    match hex4? a b c d with
    | none => .error (.flaw .malformedUnit ('u' :: a :: b :: c :: d :: e :: rest))
    | some unit =>
      if isHighHalf unit then readString start (some unit) (settle high read) (e :: rest)
      else if isLowHalf unit then
        match high with
        | some h =>
          let whole := Char.ofNat (0x10000 + (h - 0xD800) * 0x400 + (unit - 0xDC00))
          readString start none (.char whole :: read) (e :: rest)
        | none => readString start none (.ofUnit unit :: read) (e :: rest)
      else readString start none (.ofUnit unit :: settle high read) (e :: rest)
  | '\\' :: 'u' :: rest => .error (.flaw .malformedUnit ('u' :: rest))
  | '\\' :: e :: rest =>
    match simpleEscape? e with
    | some c => readString start none (.char c :: settle high read) rest
    | none => .error (.flaw .unknownEscape ('\\' :: e :: rest))
  | ['\\'] => .error (.flaw .unclosedString start)
  | c :: rest =>
    if c.toNat < 32 then .error (.flaw .controlCharacter (c :: rest))
    else readString start none (.char c :: settle high read) rest

/-- The digits at the front, and the text after them. -/
def digits (text : List Char) : List Char × List Char :=
  (text.takeWhile Char.isDigit, text.dropWhile Char.isDigit)

/-- The digits after a point, if a point with digits comes next. -/
def fraction (text : List Char) : List Char × List Char :=
  match text with
  | '.' :: rest => if (digits rest).1.isEmpty then ([], text) else digits rest
  | _ => ([], text)

/-- The exponent, if one comes next. -/
def exponent? (text : List Char) : Option Int × List Char :=
  match text with
  | [] => (none, text)
  | e :: rest =>
    if e = 'e' || e = 'E' then
      let (negative, rest) := match rest with
        | '-' :: rest => (true, rest)
        | '+' :: rest => (false, rest)
        | rest => (false, rest)
      let (ds, after) := digits rest
      if ds.isEmpty then (none, text)
      else
        let n : Int := Text.digitsValue ds
        (some (if negative then -n else n), after)
    else (none, text)

/-- A number; `text` follows its sign, `start` begins with it. A leading zero stands alone before
the point. -/
def readNumber (limits : Limits) (start : List Char) (negative : Bool) (text : List Char) :
    Except Trouble (Piece Value) :=
  let (whole, afterWhole) := match text with
    | '0' :: rest => (['0'], rest)
    | rest => digits rest
  if whole.isEmpty then .error (.flaw .noValue start)
  else
    let (part, afterPart) := fraction afterWhole
    let (exponent, rest) := exponent? afterPart
    if part.isEmpty && exponent.isNone then
      if limits.digits < whole.length then .error (.tooManyDigits whole.length)
      else
        let n : Int := Text.digitsValue whole
        .ok (.int (if negative then -n else n), rest)
    else
      .ok (.double (.ofDecimal negative (Text.digitsValue (whole ++ part))
        (exponent.getD 0 - part.length)), rest)

/-- Removes a word from the front. -/
def word? (word : String) (text : List Char) : Option (List Char) :=
  if word.toList.isPrefixOf text then some (text.drop word.length) else none

/-- A value that is neither a list, a record nor a string. -/
def readPlain (limits : Limits) (text : List Char) : Except Trouble (Piece Value) :=
  match word? "null" text, word? "true" text, word? "false" text, word? "NaN" text,
    word? "Infinity" text, word? "-Infinity" text with
  | some rest, _, _, _, _, _ => .ok (.null, rest)
  | _, some rest, _, _, _, _ => .ok (.bool true, rest)
  | _, _, some rest, _, _, _ => .ok (.bool false, rest)
  | _, _, _, some rest, _, _ => .ok (.double .nan, rest)
  | _, _, _, _, some rest, _ => .ok (.double (.infinite false), rest)
  | _, _, _, _, _, some rest => .ok (.double (.infinite true), rest)
  | _, _, _, _, _, _ =>
    match text with
    | '-' :: rest => readNumber limits text true rest
    | rest => readNumber limits text false rest

mutual

/-- One value and the text after it. The bound is on the number of steps, `room` on the nesting. -/
def readValue (limits : Limits) : (bound room : Nat) → List Char → Except Trouble (Piece Value)
  | 0, _, text => .error (.flaw .noValue text)
  | bound + 1, room, text =>
    match text, room with
    | '"' :: rest, _ => do
      let (s, rest) ← readString text none [] rest
      return (.text s, rest)
    | '[' :: _, 0 => .error .tooDeep
    | '\x7b' :: _, 0 => .error .tooDeep
    | '[' :: rest, room + 1 =>
      match skipSpace rest with
      | ']' :: after => .ok (.list [], after)
      | rest => do
        let (read, rest) ← readItems limits bound room [] rest
        return (.list read, rest)
    | '\x7b' :: rest, room + 1 =>
      match skipSpace rest with
      | '\x7d' :: after => .ok (.record [], after)
      | rest => do
        let (read, rest) ← readFields limits bound room [] rest
        return (.record (Table.ofEntries read), rest)
    | text, _ => readPlain limits text

/-- The items of a list up to its closing bracket; those read so far are reversed. -/
def readItems (limits : Limits) : (bound room : Nat) → List Value → List Char →
    Except Trouble (Piece (List Value))
  | 0, _, _, text => .error (.flaw .noValue text)
  | bound + 1, room, read, text => do
    let (item, rest) ← readValue limits bound room text
    match skipSpace rest with
    | ',' :: rest => readItems limits bound room (item :: read) (skipSpace rest)
    | ']' :: rest => return ((item :: read).reverse, rest)
    | rest => throw (.flaw .noComma rest)

/-- The fields of a record up to its closing brace; those read so far are reversed. -/
def readFields (limits : Limits) : (bound room : Nat) → List (Text × Value) → List Char →
    Except Trouble (Piece (List (Text × Value)))
  | 0, _, _, text => .error (.flaw .noName text)
  | bound + 1, room, read, text =>
    match text with
    | '"' :: rest => do
      let (name, rest) ← readString text none [] rest
      match skipSpace rest with
      | ':' :: rest =>
        let (item, rest) ← readValue limits bound room (skipSpace rest)
        match skipSpace rest with
        | ',' :: rest => readFields limits bound room ((name, item) :: read) (skipSpace rest)
        | '\x7d' :: rest => return (((name, item) :: read).reverse, rest)
        | rest => throw (.flaw .noComma rest)
      | rest => throw (.flaw .noColon rest)
    | rest => .error (.flaw .noName rest)

end

/-- The mark that some writers put in front of a text. -/
def byteOrderMark : Char := Char.ofNat 0xFEFF

/-- The value that a text spells, nothing but blanks around it. Each token takes at least one
character and at most two steps. -/
def readAll (limits : Limits) (text : List Char) : Except Trouble Value := do
  if text.head? = some byteOrderMark then throw (.flaw .byteOrderMark text)
  let (read, rest) ← readValue limits (2 * text.length + 2) limits.depth (skipSpace text)
  match skipSpace rest with
  | [] => return read
  | rest => throw (.flaw .extraText rest)

/-- The value that a text spells; `malformed` is the fault of a text that spells none. -/
def read (limits : Limits) (malformed : FlawAt → Fault) (text : String) : Except Fault Value :=
  let chars := text.toList
  (readAll limits chars).mapError fun trouble =>
    match trouble with
    | .flaw flaw rest => malformed ⟨flaw, .after (chars.take (chars.length - rest.length))⟩
    | .tooManyDigits count => .tooManyDigits count
    | .tooDeep => .tooDeep

end Handoff.Json
