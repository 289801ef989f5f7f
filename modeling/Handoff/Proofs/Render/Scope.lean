import Handoff.Proofs.Text.Ascii
import Handoff.Proofs.Render.Tags

/-!
The identifiers that script markup uses, read off its text by a one-pass scan.

Characters count where they are code: between the braces of an attribute or of an element's content,
and in a substitution of a template literal. In tags, attribute values, string literals and template
literals they do not. A word after a single dot is the name of a member. The scan refuses what could
hide code from it: comments, other string literals, and whatever is not closed.
-/

namespace Handoff.Render.Scope

open Text

/-- What a character of script markup stands in. -/
inductive Context where
  /-- An expression. -/
  | code
  /-- The inside of an element. -/
  | content
  /-- After the bracket that begins an element in an expression. -/
  | root
  /-- After a bracket inside an element: what follows begins one or ends this one. -/
  | inner
  | opening
  | ending
  | closing
  | quoted
  | literal
  | escaped
  | quasi
  /-- After a dollar sign in a template literal. -/
  | dollar
deriving DecidableEq

/-- What takes the place of a context after a character, innermost first. -/
def Context.next : Context → CodePoint → Option (List Context)
  | code, c =>
    if c = '{' then some [code, code]
    else if c = '}' then some []
    else if c = '<' then some [root, code]
    else if c = apostrophe then some [literal, code]
    else if c = '`' then some [quasi, code]
    else if c = '"' ∨ c = '/' then none
    else some [code]
  | content, c =>
    if c = '<' then some [inner]
    else if c = '{' then some [code, content]
    else if c = '}' ∨ c = '>' then none
    else some [content]
  | root, c => if c = '/' ∨ c = '>' then none else some [opening]
  | inner, c => if c = '/' then some [closing] else if c = '>' then none else some [opening, content]
  | opening, c =>
    if c = '/' then some [ending]
    else if c = '>' then some [content]
    else if c = '"' then some [quoted, opening]
    else if c = '{' then some [code, opening]
    else some [opening]
  | ending, c => if c = '>' then some [] else none
  | closing, c => if c = '>' then some [] else some [closing]
  | quoted, c => if c = '"' then some [] else some [quoted]
  | literal, c =>
    if c = '\\' then some [escaped]
    else if c = apostrophe then some []
    else if c = '\n' ∨ c = '\r' then none
    else some [literal]
  | escaped, c => if c = '\n' ∨ c = '\r' then none else some [literal]
  | quasi, c =>
    if c = '`' then some [] else if c = '$' then some [dollar]
    else if c = '\\' then none else some [quasi]
  | dollar, c =>
    if c = '`' then some [] else if c = '$' then some [dollar]
    else if c = '{' then some [code, quasi]
    else if c = '\\' then none else some [quasi]

/-- The characters of identifiers: beyond ASCII all are taken for one. -/
def isNameChar (c : CodePoint) : Bool := isHandleChar c || c == '$' || 128 ≤ c.toNat

/-- The state of the scan: the contexts, innermost first, the dots before a word, the word that is
being read, and the identifiers so far. -/
structure St where
  contexts : List Context
  dots : Nat
  word : List CodePoint
  names : List Text

namespace St

/-- The identifiers when the word ends. -/
def collected (s : St) : List Text :=
  if s.word = [] ∨ s.dots = 1 then s.names else s.names ++ [ofList s.word]

/-- Reads a character of code. -/
def read (s : St) (c : CodePoint) : St :=
  if isNameChar c then { s with word := s.word ++ [c] }
  else
    let dots := if c = '.' then (if s.word = [] then s.dots else 0) + 1 else 0
    { s with dots, word := [], names := s.collected }

end St

/-- One character. -/
def step (s : St) (c : CodePoint) : Option St :=
  match s.contexts with
  | [] => none
  | context :: rest => (context.next c).map fun inside =>
      { (if context = .code then s.read c else s) with contexts := inside ++ rest }

/-- The scan of a text. -/
def run (s : St) (text : List CodePoint) : Option St := text.foldlM step s

/-- The identifiers that an expression uses; nothing when it is not properly closed. -/
def usedNames (text : List CodePoint) : Option (List Text) :=
  match run ⟨[.code], 0, [], []⟩ text with
  | some s => if s.contexts = [.code] then some s.collected else none
  | none => none

/-- Members and quoted texts are no identifiers. -/
example : usedNames ("<div a=\x7b`b $\x7bc\x7d`.d()\x7d \x7b...e\x7d f=\"g\">" ++
    "\x7bh ? (<i j=\x7bk || 'l'\x7d />) : m\x7d</div>" : Text).toList =
      some (["c", "e", "h", "k", "m"] : List Text) := by
  decide +kernel

/-! ### Reading pieces -/

variable {found more : List Text} {before between after : List Context}
  {text rest : List CodePoint}

/-- Between two places a text uses these identifiers, in order. -/
def Uses (found : List Text) (before : List Context) (text : List CodePoint)
    (after : List Context) : Prop :=
  ∀ outer used, run ⟨before ++ outer, 0, [], used⟩ text =
    some ⟨after ++ outer, 0, [], used ++ found⟩

lemma run_append (s : St) (text more : List CodePoint) :
    run s (text ++ more) = (run s text).bind fun t => run t more := List.foldlM_append

lemma run_cons (s : St) (c : CodePoint) (text : List CodePoint) :
    run s (c :: text) = (step s c).bind fun t => run t text := rfl

namespace Uses

lemma append (h : Uses found before text between) (h' : Uses more between rest after) :
    Uses (found ++ more) before (text ++ rest) after := by
  intro outer used
  rw [run_append, h, Option.bind_some, h', List.append_assoc]

/-- What surrounds a place does not matter. -/
lemma inside (h : Uses found before text after) (outer : List Context) :
    Uses found (before ++ outer) text (after ++ outer) := by
  intro others used
  rw [List.append_assoc, List.append_assoc, h]

lemma of_silent (h : ∀ outer used, run ⟨before ++ outer, 0, [], used⟩ text =
    some ⟨after ++ outer, 0, [], used⟩) : Uses [] before text after := by
  intro outer used
  rw [h, List.append_nil]

lemma nil : Uses [] before [] before := .of_silent fun _ _ => rfl

/-- A piece that uses nothing may follow. -/
lemma then_silent (h : Uses found before text between) (h' : Uses [] between rest after) :
    Uses found before (text ++ rest) after := by
  have hall := h.append h'
  rwa [List.append_nil] at hall

/-- Characters that leave a context as it is. -/
lemma of_forall {context : Context} (hcode : context ≠ .code)
    (h : ∀ c ∈ text, context.next c = some [context]) : Uses [] [context] text [context] := by
  induction text with
  | nil => exact .nil
  | cons c rest ih =>
    obtain ⟨hc, hrest⟩ := List.forall_mem_cons.1 h
    have hfirst : Uses [] [context] [c] [context] := .of_silent fun outer used => by
      simp [step, hc, hcode, run]
    exact hfirst.append (ih hrest)

/-- What an expression uses is read off it. -/
lemma usedNames (h : Uses found [.code] text [.code]) : usedNames text = some found := by
  have hrun := h [] []
  simp only [List.append_nil, List.nil_append] at hrun
  simp [Scope.usedNames, hrun, St.collected]

end Uses

/-! ### Blanks, names and literals -/

lemma uses_blank {text : List CodePoint} (h : Reader.IsBlank text) {context : Context}
    (hplace : context = .content ∨ context = .code) : Uses [] [context] text [context] := by
  induction text with
  | nil => exact .nil
  | cons c rest ih =>
    obtain ⟨hc, hrest⟩ := List.forall_mem_cons.1 h
    have hfirst : Uses [] [context] [c] [context] := by
      rcases hplace with rfl | rfl <;> rcases hc with rfl | rfl <;>
        exact .of_silent fun _ _ => rfl
    exact hfirst.append (ih hrest)

/-- The characters of identifiers go on with the code. -/
lemma next_of_isNameChar {c : CodePoint} (h : isNameChar c = true) :
    Context.code.next c = some [.code] := by
  have hne {d : CodePoint} (hd : isNameChar d = false) : c ≠ d := by
    rintro rfl
    rw [h] at hd
    cases hd
  have hquotes : ¬ (c = '"' ∨ c = '/') := by
    rintro (hc | hc)
    · exact hne (by decide) hc
    · exact hne (by decide) hc
  simp only [Context.next, if_neg (hne (d := '\x7b') (by decide)),
    if_neg (hne (d := '\x7d') (by decide)), if_neg (hne (d := '<') (by decide)),
    if_neg (hne (d := apostrophe) (by decide)), if_neg (hne (d := '`') (by decide)), if_neg hquotes]

lemma run_word {rest : List Context} {word text : List CodePoint} {used : List Text}
    (h : ∀ c ∈ text, isNameChar c = true) :
    run ⟨.code :: rest, 0, word, used⟩ text = some ⟨.code :: rest, 0, word ++ text, used⟩ := by
  induction text generalizing word with
  | nil => rw [List.append_nil]; rfl
  | cons c more ih =>
    obtain ⟨hc, hmore⟩ := List.forall_mem_cons.1 h
    have hstep : step ⟨.code :: rest, 0, word, used⟩ c =
        some ⟨.code :: rest, 0, word ++ [c], used⟩ := by
      simp [step, next_of_isNameChar hc, St.read, hc]
    rw [run_cons, hstep, Option.bind_some, ih hmore, List.append_assoc]
    rfl

/-- An identifier up to a character behind it. -/
lemma uses_name {name : Text} (hover : Over isHandleChar name) (hne : name ≠ "") {c : CodePoint}
    (hc : isNameChar c = false ∧ c ≠ '.') (hnext : Context.code.next c = some after) :
    Uses [name] [.code] (name.toList ++ [c]) after := by
  intro outer used
  have hword : run ⟨[.code] ++ outer, 0, [], used⟩ name.toList =
      some ⟨.code :: outer, 0, name.toList, used⟩ :=
    run_word fun d hd => by simp [isNameChar, hover d hd]
  have hlist : name.toList ≠ [] := fun he => hne (ext_toList he)
  rw [run_append, hword, Option.bind_some, run_cons]
  simp [step, hnext, St.read, hc, St.collected, hlist, run]

lemma uses_escapeScriptChar (c : CodePoint) :
    Uses [] [.literal] (escapeScriptChar c) [.literal] := by
  unfold escapeScriptChar
  split_ifs with h1 h2 h3 h4
  · exact .of_silent fun _ _ => rfl
  · exact .of_silent fun _ _ => rfl
  · exact .of_silent fun _ _ => rfl
  · exact .of_silent fun _ _ => rfl
  · refine .of_forall (by decide) fun d hd => ?_
    cases List.mem_singleton.1 hd
    simp [Context.next, h1, h2, h3, h4]

/-- Whatever characters a literal denotes, they use nothing. -/
lemma uses_scriptLiteral (text : Text) : Uses [] [.code] (scriptLiteral text).toList [.code] := by
  have hopen : Uses [] [.code] [.char apostrophe] [.literal, .code] := .of_silent fun _ _ => rfl
  have hclose : Uses [] [.literal, .code] [.char apostrophe] [.code] := .of_silent fun _ _ => rfl
  have hbody (l : List CodePoint) : Uses [] [.literal] (l.flatMap escapeScriptChar) [.literal] := by
    induction l with
    | nil => exact .nil
    | cons c rest ih => exact (uses_escapeScriptChar c).append ih
  exact hopen.append (((hbody text.toList).inside [.code]).append hclose)

end Handoff.Render.Scope
