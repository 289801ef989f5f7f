import Handoff.Text.Basic

/-!
Texts inside the languages that are written: string literals between apostrophes, and attribute
values between double quotes.
-/

namespace Handoff.Text

/-- The apostrophe, the quote of script literals. -/
def apostrophe : Char := Char.ofNat 39

/-- How one character stands inside a script literal: backslash, apostrophe and line ends are
escaped. -/
def escapeScriptChar (c : CodePoint) : List CodePoint :=
  if c = '\\' then ['\\', '\\']
  else if c = apostrophe then ['\\', apostrophe]
  else if c = '\r' then ['\\', 'r']
  else if c = '\n' then ['\\', 'n']
  else [c]

/-- A script literal that denotes the text. -/
def scriptLiteral (text : Text) : Text :=
  Text.ofList (.char apostrophe :: text.toList.flatMap escapeScriptChar ++ [.char apostrophe])

/-- How one character stands in markup: the five characters with a meaning there become
references. -/
def escapeMarkupChar (c : CodePoint) : List CodePoint :=
  if c = '&' then ("&amp;" : Text).toList
  else if c = '<' then ("&lt;" : Text).toList
  else if c = '>' then ("&gt;" : Text).toList
  else if c = '"' then ("&quot;" : Text).toList
  else if c = apostrophe then ("&#x27;" : Text).toList
  else [c]

/-- The text as it stands inside an attribute value. -/
def escapeMarkup (text : Text) : Text := Text.ofList (text.toList.flatMap escapeMarkupChar)

end Handoff.Text
