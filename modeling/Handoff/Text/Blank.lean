import Handoff.Text.CharClass

/-!
Blank characters: the control characters that separate text, the spaces, and the separators of
lines and paragraphs. Words are what stands between blanks.
-/

namespace Handoff.Text

/-- The blank characters. -/
def blanks : CharClass :=
  [(9, 13), (28, 32), (133, 133), (160, 160), (5760, 5760), (8192, 8202), (8232, 8233),
   (8239, 8239), (8287, 8287), (12288, 12288)]

/-- Whether a character is blank. -/
def isBlank (c : CodePoint) : Bool := blanks.has c

/-- Every run of blanks becomes one hyphen. `inRun` says that the character before was blank. -/
def hyphenateFrom (inRun : Bool) : List CodePoint → List CodePoint
  | [] => []
  | c :: rest =>
    if isBlank c then
      if inRun then hyphenateFrom true rest else '-' :: hyphenateFrom true rest
    else c :: hyphenateFrom false rest

/-- Every run of blanks becomes one hyphen. -/
def hyphenate (text : List CodePoint) : List CodePoint := hyphenateFrom false text

/-- The maximal runs of characters that are not separators, in order. `current` is the run being
read, reversed. -/
def runsFrom (separator : CodePoint → Bool) (current : List CodePoint) :
    List CodePoint → List (List CodePoint)
  | [] => if current.isEmpty then [] else [current.reverse]
  | c :: rest =>
    if separator c then
      if current.isEmpty then runsFrom separator [] rest
      else current.reverse :: runsFrom separator [] rest
    else runsFrom separator (c :: current) rest

/-- The maximal runs of characters that are not separators, in order. -/
def runs (separator : CodePoint → Bool) (text : List CodePoint) : List (List CodePoint) :=
  runsFrom separator [] text

/-- The words of a text, one space between them. -/
def singleSpaced (text : Text) : Text :=
  Text.intercalate " " ((runs isBlank text.toList).map Text.ofList)

/-- The text without the blanks at its two ends. -/
def trim (text : Text) : Text :=
  Text.ofList (((text.toList.dropWhile isBlank).reverse.dropWhile isBlank).reverse)

/-- ASCII's blank characters are blank. -/
theorem isBlank_of_isWhitespace {c : Char} (h : c.isWhitespace = true) : isBlank c = true := by
  simp only [Char.isWhitespace, Bool.or_eq_true, decide_eq_true_eq] at h
  rcases h with ((h | h) | h) | h <;> subst h <;> decide

end Handoff.Text
