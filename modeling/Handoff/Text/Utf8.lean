import Handoff.Text.Basic

/-!
Texts as bytes and bytes as texts, in UTF-8.

A text with a surrogate has no bytes. Bytes that are no UTF-8 are replaced: one replacement
character stands for each longest run of bytes that begins a character and does not end it, and for
each byte that can begin none.
-/

namespace Handoff.Text

/-- What stands for bytes, or for a surrogate, that are no character. -/
def replacement : Char := Char.ofNat 0xFFFD

/-- The text as a string, every surrogate replaced. -/
protected def toString (text : Text) : String :=
  String.ofList (text.toList.map fun c => c.char?.getD replacement)

instance : ToString Text := ⟨Text.toString⟩

/-! ## Encoding -/

/-- Surrogates side by side: the first of them, the number of code points before it, and how many
there are. -/
structure SurrogateRun where
  first : Fin 0x800
  offset : Nat
  count : Nat
deriving DecidableEq

/-- The first run of surrogates after `offset` code points. The surrogates that `stands` admits do
no harm in front of it. -/
def surrogatesFrom (stands : Fin 0x800 → Bool) (offset : Nat) : List CodePoint → Option SurrogateRun
  | [] => none
  | .char _ :: rest => surrogatesFrom stands (offset + 1) rest
  | .surrogate index :: rest =>
    if stands index then surrogatesFrom stands (offset + 1) rest
    else some ⟨index, offset, (rest.takeWhile CodePoint.isSurrogate).length + 1⟩

/-- The first run of surrogates of a text. -/
def surrogates? (text : Text) : Option SurrogateRun :=
  surrogatesFrom (fun _ => false) 0 text.toList

/-- The bytes of a text without surrogates, or the first surrogates of any other. -/
def encode (text : Text) : Except SurrogateRun ByteArray :=
  match text.surrogates? with
  | some run => .error run
  | none => .ok (String.ofList text.chars).toUTF8

theorem surrogatesFrom_map_char (stands : Fin 0x800 → Bool) (offset : Nat) (chars : List Char) :
    surrogatesFrom stands offset (chars.map .char) = none := by
  induction chars generalizing offset with
  | nil => rfl
  | cons c rest ih => exact ih (offset + 1)

/-- A text of characters has the bytes of its string. -/
theorem encode_ofChars (chars : List Char) :
    (ofChars chars).encode = .ok (String.ofList chars).toUTF8 := by
  rw [encode, surrogates?, toList_ofChars, surrogatesFrom_map_char, chars_ofChars]

/-- The surrogates that stand for one byte each in the names of files. -/
def standsForByte (index : Fin 0x800) : Bool := 0x480 ≤ index.val && index.val < 0x500

/-- The first surrogates that the name of a file cannot hold. -/
def surrogatesInName? (name : Text) : Option SurrogateRun :=
  surrogatesFrom standsForByte 0 name.toList

/-- The bytes that the name of a file takes. -/
def nameSize (name : Text) : Nat :=
  name.toList.foldr (fun c size => byteCount c + size) 0
where
  /-- A surrogate in a name stands for one byte. -/
  byteCount : CodePoint → Nat
    | .char c => c.utf8Size
    | .surrogate _ => 1

/-! ## Decoding -/

/-- The inside of a character: its bits so far, the bytes owed after the next one, and the range of
the next one. -/
structure Unfinished where
  bits : Nat
  owed : Nat
  low : Nat
  high : Nat

/-- What a byte leads to: the characters it ends, and the character that it leaves unfinished. -/
abbrev ByteStep := List Char × Option Unfinished

/-- A byte at the beginning of a character. The range of the second byte keeps out long spellings,
surrogates and code points beyond the last. -/
def firstByte (b : Nat) : ByteStep :=
  if b < 0x80 then ([Char.ofNat b], none)
  else if b < 0xC2 then ([replacement], none)
  else if b < 0xE0 then ([], some ⟨b - 0xC0, 0, 0x80, 0xBF⟩)
  else if b = 0xE0 then ([], some ⟨0, 1, 0xA0, 0xBF⟩)
  else if b = 0xED then ([], some ⟨b - 0xE0, 1, 0x80, 0x9F⟩)
  else if b < 0xF0 then ([], some ⟨b - 0xE0, 1, 0x80, 0xBF⟩)
  else if b = 0xF0 then ([], some ⟨0, 2, 0x90, 0xBF⟩)
  else if b < 0xF4 then ([], some ⟨b - 0xF0, 2, 0x80, 0xBF⟩)
  else if b = 0xF4 then ([], some ⟨b - 0xF0, 2, 0x80, 0x8F⟩)
  else ([replacement], none)

/-- A byte inside a character. A byte out of range begins another one. -/
def nextByte (inside : Unfinished) (b : Nat) : ByteStep :=
  if inside.low ≤ b && b ≤ inside.high then
    let bits := inside.bits * 64 + (b - 0x80)
    match inside.owed with
    | 0 => ([Char.ofNat bits], none)
    | owed + 1 => ([], some ⟨bits, owed, 0x80, 0xBF⟩)
  else
    let (ended, unfinished) := firstByte b
    (replacement :: ended, unfinished)

/-- The characters of bytes; those of the bytes before are reversed in `read`. -/
def decodeFrom (read : List Char) (unfinished : Option Unfinished) : List UInt8 → List Char
  | [] => if unfinished.isSome then (replacement :: read).reverse else read.reverse
  | b :: rest =>
    let (ended, unfinished) := match unfinished with
      | none => firstByte b.toNat
      | some inside => nextByte inside b.toNat
    decodeFrom (ended.reverse ++ read) unfinished rest

/-- The characters of bytes. -/
def decode (content : ByteArray) : String := String.ofList (decodeFrom [] none content.toList)

end Handoff.Text
