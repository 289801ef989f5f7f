/-!
Texts: sequences of code points.

A code point is a character or a surrogate. Two surrogates stand for one character where sixteen
bits are the unit; one of them alone stands for nothing, but a text may hold it.
-/

namespace Handoff

/-- A code point: a character, or a surrogate by its distance from the first one. -/
inductive CodePoint where
  | char (c : Char)
  | surrogate (index : Fin 0x800)
deriving DecidableEq

namespace CodePoint

instance : Coe Char CodePoint := ⟨char⟩

instance : Inhabited CodePoint := ⟨char default⟩

/-- The number of the first surrogate. -/
def firstSurrogate : Nat := 0xD800

/-- The number of a code point. -/
def toNat : CodePoint → Nat
  | char c => c.toNat
  | surrogate index => firstSurrogate + index

/-- The code point of a sixteen-bit unit that stands by itself. -/
def ofUnit (unit : Nat) : CodePoint :=
  if h : firstSurrogate ≤ unit ∧ unit < firstSurrogate + 0x800 then
    surrogate ⟨unit - firstSurrogate, by omega⟩
  else char (Char.ofNat unit)

/-- The character that a code point is. -/
def char? : CodePoint → Option Char
  | char c => some c
  | surrogate _ => none

/-- Whether a code point is a surrogate. -/
def isSurrogate : CodePoint → Bool
  | char _ => false
  | surrogate _ => true

/-- The code point with its character changed; a surrogate stays. -/
def mapChar (f : Char → Char) : CodePoint → CodePoint
  | char c => char (f c)
  | surrogate index => surrogate index

/-- Code points are ordered by their numbers. -/
instance : LE CodePoint := ⟨fun a b => a.toNat ≤ b.toNat⟩

instance (a b : CodePoint) : Decidable (a ≤ b) := inferInstanceAs (Decidable (a.toNat ≤ b.toNat))

instance : Ord CodePoint := ⟨compareOn toNat⟩

/-- A code point is known by its number. -/
theorem toNat_inj {a b : CodePoint} : a.toNat = b.toNat ↔ a = b := by
  constructor
  · intro h
    match a, b with
    | char c, char d => rw [Char.toNat_inj.1 h]
    | surrogate i, surrogate j =>
      simp only [toNat, Nat.add_left_cancel_iff] at h
      rw [Fin.ext h]
    | char c, surrogate j =>
      have hc := c.valid
      simp only [toNat, firstSurrogate, Char.toNat, UInt32.isValidChar, Nat.isValidChar] at h hc
      omega
    | surrogate i, char d =>
      have hd := d.valid
      simp only [toNat, firstSurrogate, Char.toNat, UInt32.isValidChar, Nat.isValidChar] at h hd
      omega
  · rintro rfl
    rfl

instance : Std.TransOrd CodePoint := inferInstanceAs (Std.TransCmp (compareOn toNat))

instance : Std.LawfulEqOrd CodePoint where
  eq_of_compare h := toNat_inj.1 (Std.LawfulEqOrd.eq_of_compare h)

end CodePoint

/-- A text. -/
structure Text where
  ofList ::
  /-- The code points in order. -/
  toList : List CodePoint
deriving DecidableEq

/-- Lines, without what ends them. -/
abbrev Lines := List Text

namespace Text

/-- The text of characters. -/
def ofChars (chars : List Char) : Text := ofList (chars.map .char)

/-- A string as a text. -/
def ofString (s : String) : Text := ofChars s.toList

instance : Coe String Text := ⟨ofString⟩

instance : Inhabited Text := ⟨""⟩

instance : Append Text := ⟨fun a b => ofList (a.toList ++ b.toList)⟩

/-- Texts are ordered by their first difference. -/
instance : Ord Text := ⟨compareOn toList⟩

instance : Std.TransOrd Text := inferInstanceAs (Std.TransCmp (compareOn toList))

instance : Std.LawfulEqOrd Text where
  eq_of_compare {a b} h := by
    cases a
    cases b
    exact congrArg ofList (Std.LawfulEqOrd.eq_of_compare h)

/-- Whether there is no code point. -/
def isEmpty (text : Text) : Bool := text.toList.isEmpty

/-- The number of code points. -/
def length (text : Text) : Nat := text.toList.length

/-- Texts one after the other. -/
def join (texts : List Text) : Text := ofList (texts.flatMap toList)

/-- Texts one after the other, with a separator between them. -/
def intercalate (separator : Text) (texts : List Text) : Text :=
  ofList (List.intercalate separator.toList (texts.map toList))

/-- The characters of a text, surrogates left out. -/
def chars (text : Text) : List Char := text.toList.filterMap CodePoint.char?

@[simp] theorem toList_append (a b : Text) : (a ++ b).toList = a.toList ++ b.toList := rfl

@[simp] theorem toList_ofChars (chars : List Char) : (ofChars chars).toList = chars.map .char := rfl

/-- A text of characters gives them back. -/
@[simp] theorem chars_ofChars (chars : List Char) : (ofChars chars).chars = chars := by
  induction chars with
  | nil => rfl
  | cons c rest ih => exact congrArg (c :: ·) ih

end Text

end Handoff
