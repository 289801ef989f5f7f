import Handoff.Proofs.Text.Ascii
import Handoff.Text.Quoted

/-!
Script literals are read back.

Four escapes are written, one for each character that cannot stand between apostrophes as it is. Reading
stops at the first apostrophe that is not escaped and refuses a line end; with these escapes each text has
one literal, and the text's literal is what comes out of the four replacements made one after another.
-/

namespace Handoff.Text

/-! ### Reading -/

/-- What a backslash and the character behind it stand for. -/
def scriptEscape? (c : CodePoint) : Option CodePoint :=
  if c = 'n' then some '\n'
  else if c = 'r' then some '\r'
  else if c = '\\' ∨ c = apostrophe then some c
  else none

/-- Whether a line of a script ends with the character. -/
def breaksScript (c : CodePoint) : Bool := c = '\n' || c = '\r'

/-- What is read behind an opening apostrophe: the text up to the first apostrophe that is not escaped, and
what comes behind it. A line end cannot stand there, nor can a backslash without a meaning. -/
def readScript : List CodePoint → Option (List CodePoint × List CodePoint)
  | [] => none
  | c :: rest =>
    if c = apostrophe then some ([], rest)
    else if breaksScript c then none
    else if c = '\\' then
      match rest with
      | [] => none
      | e :: more => (scriptEscape? e).bind fun d =>
        (readScript more).map fun (text, after) => (d :: text, after)
    else (readScript rest).map fun (text, after) => (c :: text, after)

/-- What is read from an opening apostrophe on. -/
def readScriptLiteral : List CodePoint → Option (List CodePoint × List CodePoint)
  | [] => none
  | c :: rest => if c = apostrophe then readScript rest else none

example : readScriptLiteral ("'It\\'s\\nfine', 'b'" : Text).toList =
    some (("It's\nfine" : Text).toList, (", 'b'" : Text).toList) := by
  decide +kernel

/-- A text that is one literal, on one line, and denotes this text. -/
structure Denotes (literal text : Text) : Prop where
  unbroken : ∀ c ∈ literal.toList, breaksScript c = false
  /-- The literal ends with its last character, whatever comes behind it. -/
  read : ∀ after : Text, readScriptLiteral (literal ++ after).toList = some (text.toList, after.toList)

variable {c d e : CodePoint} {l text after : List CodePoint} {a b : Text}

/-- The escapes that are read are those that are written. -/
lemma scriptEscape?_eq_some_iff :
    scriptEscape? e = some d ↔ escapeScriptChar d = [.char '\\', e] := by
  have hwritten : escapeScriptChar d = [.char '\\', e] ↔
      (e = 'n' ∧ d = '\n') ∨ (e = 'r' ∧ d = '\r') ∨ ((e = '\\' ∨ e = apostrophe) ∧ d = e) := by
    unfold escapeScriptChar
    split_ifs <;> grind [apostrophe]
  rw [hwritten]
  unfold scriptEscape?
  split_ifs <;> grind [apostrophe]

/-- A character is escaped, or can stand between apostrophes as it is. -/
lemma escapeScriptChar_cases (c : CodePoint) : (∃ e, escapeScriptChar c = [.char '\\', e]) ∨
    (c ≠ apostrophe ∧ breaksScript c = false ∧ c ≠ '\\') := by
  unfold escapeScriptChar breaksScript
  split_ifs <;> simp_all

lemma escapeScriptChar_of_plain (hquote : c ≠ apostrophe) (hbreak : breaksScript c = false)
    (hescape : c ≠ '\\') : escapeScriptChar c = [c] := by
  simp_all [escapeScriptChar, breaksScript]

lemma breaksScript_escapeScriptChar (c : CodePoint) : ∀ d ∈ escapeScriptChar c, breaksScript d = false := by
  unfold escapeScriptChar breaksScript
  split_ifs <;> simp_all [apostrophe]

lemma readScript_escaped (e : CodePoint) (l : List CodePoint) :
    readScript (.char '\\' :: e :: l) = (scriptEscape? e).bind fun d =>
      (readScript l).map fun (text, after) => (d :: text, after) := rfl

lemma readScript_plain (hquote : c ≠ apostrophe) (hbreak : breaksScript c = false) (hescape : c ≠ '\\') :
    readScript (c :: l) = (readScript l).map fun (text, after) => (c :: text, after) := by
  rw [readScript.eq_def]
  simp only [if_neg hquote, hbreak, Bool.false_eq_true, if_false, if_neg hescape]

/-- One escaped character is read as what it was. -/
lemma readScript_escapeScriptChar (c : CodePoint) (l : List CodePoint) :
    readScript (escapeScriptChar c ++ l) =
      (readScript l).map fun (text, after) => (c :: text, after) := by
  rcases escapeScriptChar_cases c with ⟨e, he⟩ | ⟨hquote, hbreak, hescape⟩
  · rw [he, List.cons_append, List.singleton_append, readScript_escaped, scriptEscape?_eq_some_iff.2 he]
    rfl
  · rw [escapeScriptChar_of_plain hquote hbreak hescape]
    exact readScript_plain hquote hbreak hescape

/-- Behind an apostrophe, a text is read exactly from its escaped characters with an apostrophe behind
them. -/
theorem readScript_eq_some_iff :
    readScript l = some (text, after) ↔ l = text.flatMap escapeScriptChar ++ .char apostrophe :: after := by
  constructor
  · intro h
    fun_induction readScript l generalizing text with
    | case1 => cases h
    | case2 rest =>
      cases h
      rfl
    | case3 c rest hquote hbreak => cases h
    | case4 hquote hbreak => cases h
    | case5 hquote hbreak e more ih =>
      obtain ⟨d, hd, h⟩ := Option.bind_eq_some_iff.1 h
      obtain ⟨⟨more', after'⟩, hread, h⟩ := Option.map_eq_some_iff.1 h
      cases h
      rw [ih hread, List.flatMap_cons, scriptEscape?_eq_some_iff.1 hd]
      rfl
    | case6 c rest hquote hbreak hescape ih =>
      obtain ⟨⟨rest', after'⟩, hread, h⟩ := Option.map_eq_some_iff.1 h
      cases h
      rw [ih hread, List.flatMap_cons, escapeScriptChar_of_plain hquote (by simpa using hbreak) hescape]
      rfl
  · rintro rfl
    induction text with
    | nil =>
      rw [List.flatMap_nil, List.nil_append, readScript.eq_def]
      exact if_pos rfl
    | cons c rest ih =>
      rw [List.flatMap_cons, List.append_assoc, readScript_escapeScriptChar, ih]
      rfl

/-! ### Literals -/

/-- A text is read from its own literal, and from no other. -/
theorem readScriptLiteral_eq_some_iff : readScriptLiteral l = some (a.toList, after) ↔
    l = (scriptLiteral a).toList ++ after := by
  have hliteral : (scriptLiteral a).toList ++ after =
      .char apostrophe :: (a.toList.flatMap escapeScriptChar ++ .char apostrophe :: after) := by
    simp [scriptLiteral]
  rw [hliteral]
  cases l with
  | nil => exact iff_of_false nofun nofun
  | cons c rest =>
    rw [readScriptLiteral, List.cons.injEq]
    split
    · rename_i hc
      rw [readScript_eq_some_iff, and_iff_right hc]
    · rename_i hc
      exact iff_of_false nofun fun h => hc h.1

lemma breaksScript_scriptLiteral (text : Text) :
    ∀ c ∈ (scriptLiteral text).toList, breaksScript c = false := by
  intro c hc
  simp only [scriptLiteral, List.mem_append, List.mem_cons, List.mem_flatMap, List.not_mem_nil,
    or_false] at hc
  rcases hc with (rfl | ⟨d, -, hc⟩) | rfl
  · decide
  · exact breaksScript_escapeScriptChar d c hc
  · decide

theorem denotes_scriptLiteral (text : Text) : Denotes (scriptLiteral text) text where
  unbroken := breaksScript_scriptLiteral text
  read _ := readScriptLiteral_eq_some_iff.2 rfl

lemma Denotes.text_eq {literal : Text} (ha : Denotes literal a) (hb : Denotes literal b) : a = b := by
  have hread := (ha.read "").symm.trans (hb.read "")
  exact ext_toList (Prod.mk.inj (Option.some.inj hread)).1

theorem scriptLiteral_injective : Function.Injective scriptLiteral := fun a b h =>
  (denotes_scriptLiteral a).text_eq (h ▸ denotes_scriptLiteral b)

/-! ### One replacement after another -/

/-- Each occurrence of a character replaced. -/
def replaceChar (c : CodePoint) (instead l : List CodePoint) : List CodePoint :=
  l.flatMap fun d => if d = c then instead else [d]

/-- The four escapes made in turn, each in the whole text. -/
def escapeInTurn (l : List CodePoint) : List CodePoint :=
  replaceChar '\n' ['\\', 'n'] <| replaceChar '\r' ['\\', 'r'] <|
    replaceChar apostrophe ['\\', apostrophe] <| replaceChar '\\' ['\\', '\\'] l

/-- The backslashes that a replacement brings in are not replaced again, since theirs comes first. -/
theorem flatMap_escapeScriptChar (l : List CodePoint) : l.flatMap escapeScriptChar = escapeInTurn l := by
  -- Each replacement goes through the characters one by one, so it is enough to look at one.
  have hchar (c : CodePoint) : escapeScriptChar c = escapeInTurn [c] := by
    unfold escapeScriptChar escapeInTurn replaceChar
    split_ifs <;> simp_all [apostrophe]
  have hcons (c : CodePoint) (l : List CodePoint) :
      escapeInTurn (c :: l) = escapeInTurn [c] ++ escapeInTurn l := by
    simp [escapeInTurn, replaceChar]
  induction l with
  | nil => rfl
  | cons c rest ih => rw [List.flatMap_cons, hcons, hchar, ih]

end Handoff.Text
