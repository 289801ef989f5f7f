import Handoff.Text.Blank

/-!
Pascal case: the ASCII words of a label joined, each with one capital in front.
-/

namespace Handoff.Text

/-- The letters and digits of ASCII. -/
def isWordChar (c : CodePoint) : Bool :=
  ('a' ≤ c && c ≤ 'z') || ('A' ≤ c && c ≤ 'Z') || ('0' ≤ c && c ≤ '9')

/-- The word with its first letter large and the others small. -/
def capitalize : List CodePoint → List CodePoint
  | [] => []
  | c :: rest => c.mapChar Char.toUpper :: rest.map (CodePoint.mapChar Char.toLower)

/-- The words of the label, capitalized and joined. -/
def pascal (label : Text) : Text :=
  Text.ofList ((runs (fun c => !isWordChar c) label.toList).flatMap capitalize)

end Handoff.Text
