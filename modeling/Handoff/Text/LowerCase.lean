import Handoff.Text.CaseTable

/-!
Lower case for every script.

A capital becomes its small letter. Two capitals are special: the dotted capital I becomes an `i`
with a combining dot, and a sigma at the end of a word takes its final form.
-/

namespace Handoff.Text

/-- The small letters of one character, without regard to its place in the word. -/
def lowerChar (c : CodePoint) : List CodePoint :=
  let n := c.toNat
  if n < 128 then [if 'A' ≤ c ∧ c ≤ 'Z' then .char (Char.ofNat (n + 32)) else c]
  else if n = 0x130 then ['i', Char.ofNat 0x307]
  else
    match smallLetters.find? fun r => r.1 ≤ n && n ≤ r.2.1 && (n - r.1) % r.2.2.1 == 0 with
    | some r => [.char <| Char.ofNat (n + r.2.2.2).toNat]
    | none => [c]

/-- Whether the nearest character that is not passed over has case. -/
def casedNext (text : List CodePoint) : Bool :=
  match text.dropWhile caseIgnorable.has with
  | c :: _ => casedLetters.has c
  | [] => false

/-- The capital sigma. -/
def capitalSigma : CodePoint := Char.ofNat 0x3A3

/-- A sigma is final when a letter stands before it and none after it. -/
def lowerSigma (before after : List CodePoint) : CodePoint :=
  if casedNext before && !casedNext after then Char.ofNat 0x3C2 else Char.ofNat 0x3C3

/-- The lower case of a text whose characters before it, reversed, are `before`. -/
def lowerFrom (before : List CodePoint) : List CodePoint → List CodePoint
  | [] => []
  | c :: after =>
    (if c = capitalSigma then [lowerSigma before after] else lowerChar c) ++
      lowerFrom (c :: before) after

/-- The lower case of a text. -/
def lower (text : Text) : Text := Text.ofList (lowerFrom [] text.toList)

end Handoff.Text
