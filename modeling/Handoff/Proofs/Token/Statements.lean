import Handoff.Proofs.Files.Names
import Handoff.Text.Literal
import Mathlib.Data.List.DropRight

/-!
The statements of a style sheet, read off its text by a one-pass scan.

A statement ends at a semicolon or with the block around it; comments and the spaces around a
statement do not belong to it. In a string nothing ends. The scan refuses escapes outside strings,
braces in strings, which may begin a substitution, and whatever is not closed.
-/

namespace Handoff.Token

open Asset Files Text

/-! ### The scan -/

/-- What a character of a style sheet stands in. -/
inductive Place where
  | code
  /-- After a slash in code. -/
  | slash
  /-- A comment up to the end of the line. -/
  | line
  | block
  /-- After a star in a comment. -/
  | star
  | quoted (quote : CodePoint)
  | escaped (quote : CodePoint)
deriving DecidableEq

/-- Characters that end a line. -/
def isLineEnd (c : CodePoint) : Bool := c == '\n' || c == '\r' || c == '\x0c'

/-- The spaces of a style sheet. -/
def isSpace (c : CodePoint) : Bool := c == ' ' || c == '\t' || isLineEnd c

/-- What a character that belongs to a statement leads to; nothing for one that does not. -/
def Place.inside? : Place → CodePoint → Option Place
  | code, c => if c = ';' ∨ c = '{' ∨ c = '}' ∨ c = '\\' then none else some (outside c)
  | slash, c =>
    if c = ';' ∨ c = '{' ∨ c = '}' ∨ c = '\\' ∨ c = '/' ∨ c = '*' then none else some (outside c)
  | quoted quote, c =>
    if isLineEnd c ∨ c = '{' then none
    else if c = '\\' then some (escaped quote)
    else if c = quote then some code
    else some (quoted quote)
  | escaped quote, c => if isLineEnd c ∨ c = '{' then none else some (quoted quote)
  | line, _ | block, _ | star, _ => none
where
  /-- What a character outside strings and comments leads to. -/
  outside (c : CodePoint) : Place :=
    if c = '/' then slash else if c = '"' ∨ c = apostrophe then quoted c else code

/-- A statement with the beginnings of the blocks around it, innermost first. -/
structure Statement where
  blocks : List Text
  text : Text
deriving DecidableEq

/-- The state of the scan: the place, the beginnings of the blocks that are open, the statement that
is being read, and the statements so far. -/
structure Scan where
  place : Place
  blocks : List Text
  pending : List CodePoint
  found : List Statement
deriving DecidableEq

namespace Scan

/-- The statement that is being read, without the spaces at its end. -/
def statement (s : Scan) : Text := ofList (s.pending.rdropWhile isSpace)

/-- Takes a character into the statement. None begins with a space. -/
def add (s : Scan) (c : CodePoint) : Scan :=
  if s.pending.isEmpty && isSpace c then s else { s with pending := s.pending ++ [c] }

/-- Ends the statement, if there is one. -/
def finished (s : Scan) : Scan where
  place := .code
  blocks := s.blocks
  pending := []
  found := if s.statement.isEmpty then s.found else s.found ++ [⟨s.blocks, s.statement⟩]

/-- Ends a statement, or begins or ends a block. -/
def mark (s : Scan) (c : CodePoint) : Option Scan :=
  if c = ';' then some s.finished
  else if c = '{' then
    some { s with place := .code, blocks := s.statement :: s.blocks, pending := [] }
  else if c = '}' then
    match s.blocks with
    | [] => none
    | _ :: outer => some { s.finished with blocks := outer }
  else none

/-- One character. -/
def step (s : Scan) (c : CodePoint) : Option Scan :=
  match s.place.inside? c with
  | some place => some { s.add c with place }
  | none =>
    match s.place with
    | .code => s.mark c
    | .slash =>
      -- The slash was the beginning of a comment.
      if c = '/' then some { s with place := .line, pending := s.pending.dropLast }
      else if c = '*' then some { s with place := .block, pending := s.pending.dropLast }
      else s.mark c
    | .line => some { s with place := if isLineEnd c then .code else .line }
    | .block => some { s with place := if c = '*' then .star else .block }
    | .star => some { s with place := if c = '/' then .code else if c = '*' then .star else .block }
    | .quoted _ | .escaped _ => none

/-- The scan of a text. -/
def run (s : Scan) (text : List CodePoint) : Option Scan := text.foldlM step s

end Scan

/-- The statements of a style sheet; nothing when it is not properly closed. The end of the text ends
a line. -/
def statements? (sheet : Text) : Option (List Statement) :=
  match Scan.run ⟨.code, [], [], []⟩ (sheet.toList ++ [.char '\n']) with
  | some s => if s.place = .code ∧ s.blocks = [] ∧ s.pending = [] then some s.found else none
  | none => none

/-! ### Declarations -/

/-- The name and the value that a statement declares when it begins in a certain way. -/
def Statement.declared? (lead : Text) (s : Statement) : Option (Text × Text) :=
  (s.text.toList.dropPrefix? lead.toList).bind fun rest =>
    match rest.dropWhile (· ≠ .char ':') with
    | [] => none
    | _ :: value => some (ofList ((rest.takeWhile (· ≠ .char ':')).rdropWhile isSpace),
        ofList (value.dropWhile isSpace))

/-- What is declared for the page: the blocks around it. -/
def pageBlocks : List Text := [":root"]

/-- The custom properties of the page, in the order in which they are declared. -/
def customProperties (statements : List Statement) : List (Text × Text) :=
  statements.filterMap fun s => if s.blocks = pageBlocks then s.declared? "--" else none

/-- The variables of the style sheets, in the order in which they are declared. -/
def sheetVariables (statements : List Statement) : List (Text × Text) :=
  statements.filterMap fun s => if s.blocks = [] then s.declared? "$" else none

/-- The path of the sheet that a statement uses. -/
def Statement.use? (s : Statement) : Option Text :=
  (s.text.toList.dropPrefix? ("@use '" : Text).toList).bind fun rest =>
    if rest.getLast? = some apostrophe then some (ofList rest.dropLast) else none

/-- The sheets that are used. -/
def usedSheets (statements : List Statement) : List Text :=
  statements.filterMap fun s => if s.blocks = [] then s.use? else none

/-- Comments and the contents of strings are no statements. -/
example : (statements? ("/* a: b; */\n@use 'c';\n:root \x7b // d\n  --e: 'f; g'; /* h */ --i : j/k\n\x7d" ++
    "\n$l: m;")).map
      (fun found => (usedSheets found, customProperties found, sheetVariables found)) =
        some ((["c"] : List Text), ([("e", "'f; g'"), ("i", "j/k")] : List (Text × Text)),
          ([("l", "m")] : List (Text × Text))) := by
  decide +kernel

/-! ### Pieces of statements -/

/-- The characters of names: those of identifiers, and those that only numbers have. -/
def isTokenNameChar (c : CodePoint) : Bool := isFileChar c || c == '.' || c == '+'

/-- A value: it stays one wherever it stands, and neither begins nor ends with a space. -/
structure IsTokenValue (value : Text) : Prop where
  closed : value.toList.foldlM Place.inside? .code = some .code
  first : value.toList.head?.any (fun c => !isSpace c) = true
  last : value.toList.getLast?.any (fun c => !isSpace c) = true

instance : DecidablePred IsTokenValue := fun value =>
  decidable_of_iff (value.toList.foldlM Place.inside? .code = some .code ∧
      value.toList.head?.any (fun c => !isSpace c) = true ∧
      value.toList.getLast?.any (fun c => !isSpace c) = true)
    ⟨fun h => ⟨h.1, h.2.1, h.2.2⟩, fun h => ⟨h.closed, h.first, h.last⟩⟩

section

variable {s : Scan} {blocks : List Text} {name : Text}

namespace Scan

lemma run_append (s : Scan) (text more : List CodePoint) :
    run s (text ++ more) = (run s text).bind fun t => run t more := List.foldlM_append

lemma run_cons (s : Scan) (c : CodePoint) (text : List CodePoint) :
    run s (c :: text) = (step s c).bind fun t => run t text := rfl

/-- The state with more statements in front. -/
def after (s : Scan) (before : List Statement) : Scan := { s with found := before ++ s.found }

lemma finished_after (s : Scan) (before : List Statement) :
    (s.after before).finished = s.finished.after before := by
  have hstatement : (s.after before).statement = s.statement := rfl
  by_cases hempty : s.statement.isEmpty = true
  · rw [finished, finished, hstatement, if_pos hempty, if_pos hempty]
    rfl
  · rw [finished, finished, hstatement, if_neg hempty, if_neg hempty]
    simp only [after, List.append_assoc]

lemma mark_after (s : Scan) (c : CodePoint) (before : List Statement) :
    mark (s.after before) c = (mark s c).map fun t => t.after before := by
  have hblocks : (s.after before).blocks = s.blocks := rfl
  simp only [mark, finished_after, hblocks]
  split
  · rfl
  · split
    · rfl
    · split
      · cases s.blocks <;> rfl
      · rfl

lemma step_after (s : Scan) (c : CodePoint) (before : List Statement) :
    step (s.after before) c = (step s c).map fun t => t.after before := by
  have hplace : (s.after before).place = s.place := rfl
  have hadd : (s.after before).add c = (s.add c).after before := by
    unfold add
    split <;> split <;> rename_i h h' <;> first | rfl | exact absurd h h' | exact absurd h' h
  simp only [step, hplace, mark_after]
  split
  · rw [hadd]
    rfl
  · split
    · rfl
    · split
      · rfl
      · split <;> rfl
    all_goals rfl

/-- What was found before does not matter for a text. -/
lemma run_after (s : Scan) (text : List CodePoint) (before : List Statement) :
    run (s.after before) text = (run s text).map fun t => t.after before := by
  induction text generalizing s with
  | nil => rfl
  | cons c rest ih =>
    rw [run_cons, run_cons, step_after]
    cases step s c with
    | none => rfl
    | some t => exact ih t

lemma step_inside {place : Place} {c : CodePoint} (h : s.place.inside? c = some place)
    (hpending : s.pending ≠ []) : step s c = some { s with place, pending := s.pending ++ [c] } := by
  have hadd : s.add c = { s with pending := s.pending ++ [c] } := by
    rw [add, if_neg]
    simp [hpending]
  rw [step, h, hadd]

/-- Inside a statement, what leads from place to place is taken as it stands. -/
lemma run_inside {text : List CodePoint} {place : Place}
    (h : text.foldlM Place.inside? s.place = some place) (hpending : s.pending ≠ []) :
    run s text = some { s with place, pending := s.pending ++ text } := by
  induction text generalizing s with
  | nil =>
    cases h
    rw [List.append_nil]
    rfl
  | cons c rest ih =>
    rw [List.foldlM_cons] at h
    obtain ⟨next, hnext, hrest⟩ := Option.bind_eq_some_iff.1 h
    rw [run_cons, step_inside hnext hpending, Option.bind_some, ih hrest (by simp),
      List.append_assoc]
    rfl

end Scan

lemma inside_tokenNameChar {c : CodePoint} (h : isTokenNameChar c = true) :
    Place.inside? .code c = some .code := by
  have hascii : c.toNat < 128 := by
    simp only [isTokenNameChar, Bool.or_eq_true, beq_iff_eq] at h
    rcases h with (h | rfl) | rfl
    · rcases isFileChar_iff.1 h with h | h
      · have := isWordChar_iff.1 h
        omega
      · omega
    · decide
    · decide
  revert h
  exact CodePoint.ascii_induction
    (P := fun c => isTokenNameChar c = true → Place.inside? .code c = some .code)
    (by decide +kernel) hascii

lemma inside_name (h : Over isTokenNameChar name) :
    name.toList.foldlM Place.inside? .code = some .code := by
  have hall (text : List CodePoint) (htext : ∀ c ∈ text, isTokenNameChar c = true) :
      text.foldlM Place.inside? .code = some .code := by
    induction text with
    | nil => rfl
    | cons c rest ih =>
      obtain ⟨hc, hrest⟩ := List.forall_mem_cons.1 htext
      rw [List.foldlM_cons, inside_tokenNameChar hc]
      exact ih hrest
  exact hall name.toList h

/-- A statement that does not end in a space is found as it was read. -/
lemma finished_eq {c : CodePoint} (hlast : s.pending.getLast? = some c) (hc : isSpace c = false) :
    s.finished = ⟨.code, s.blocks, [], s.found ++ [⟨s.blocks, ofList s.pending⟩]⟩ := by
  have hne : s.pending ≠ [] := by
    intro hnil
    rw [hnil] at hlast
    cases hlast
  have hstatement : s.statement = ofList s.pending := by
    rw [Scan.statement, List.rdropWhile_eq_self_iff.2]
    intro hne'
    rw [List.getLast?_eq_some_getLast hne'] at hlast
    rw [Option.some.inj hlast, hc]
    exact Bool.false_ne_true
  have hempty : (ofList s.pending).isEmpty = false := by
    simpa [Text.isEmpty] using hne
  simp [Scan.finished, hempty, hstatement]

/-! ### Lines of statements -/

/-- Between statements a text adds these, and leads from some open blocks to others. -/
def Adds (before : List Text) (text : List CodePoint) (statements : List Statement)
    (after : List Text) : Prop :=
  Scan.run ⟨.code, before, [], []⟩ text = some ⟨.code, after, [], statements⟩

instance (before : List Text) (text : List CodePoint) (statements : List Statement)
    (after : List Text) : Decidable (Adds before text statements after) :=
  inferInstanceAs (Decidable (Scan.run ⟨.code, before, [], []⟩ text =
    some ⟨.code, after, [], statements⟩))

namespace Adds

variable {before between after : List Text} {text more : List CodePoint}
  {statements others : List Statement}

lemma nil : Adds before [] [] before := rfl

lemma append (h : Adds before text statements between) (h' : Adds between more others after) :
    Adds before (text ++ more) (statements ++ others) after := by
  have hmore : Scan.run ⟨.code, between, [], statements⟩ more =
      some ⟨.code, after, [], statements ++ others⟩ := by
    have hframe := Scan.run_after ⟨.code, between, [], []⟩ more statements
    rw [h'] at hframe
    simpa only [Scan.after, List.append_nil, Option.map_some] using hframe
  rw [Adds, Scan.run_append, h, Option.bind_some, hmore]

/-- Pieces one after the other add what each adds. -/
lemma flatMap {α : Type} {items : List α} {text : α → List CodePoint} {statements : α → List Statement}
    (h : ∀ item ∈ items, Adds before (text item) (statements item) before) :
    Adds before (items.flatMap text) (items.flatMap statements) before := by
  induction items with
  | nil => exact nil
  | cons item rest ih =>
    obtain ⟨hitem, hrest⟩ := List.forall_mem_cons.1 h
    exact hitem.append (ih hrest)

end Adds

/-- The statement of a declaration. -/
def declaration (blocks : List Text) (lead : Text) (entry : Text × Text) : Statement :=
  ⟨blocks, lead ++ entry.1 ++ ": " ++ entry.2⟩

/-- A name and a value that can be declared. -/
structure IsDeclarable (entry : Text × Text) : Prop where
  name : Over isTokenNameChar entry.1
  value : IsTokenValue entry.2

instance : DecidablePred IsDeclarable := fun entry =>
  decidable_of_iff ((∀ c ∈ entry.1.toList, isTokenNameChar c = true) ∧ IsTokenValue entry.2)
    ⟨fun h => ⟨h.1, h.2⟩, fun h => ⟨h.name, h.value⟩⟩

/-- A line begins a statement, which may leave out spaces in front. -/
def Begins (blocks : List Text) (opening lead : Text) : Prop :=
  lead.toList ≠ [] ∧
    Scan.run ⟨.code, blocks, [], []⟩ opening.toList = some ⟨.code, blocks, lead.toList, []⟩

instance (blocks : List Text) (opening lead : Text) : Decidable (Begins blocks opening lead) :=
  inferInstanceAs (Decidable (_ ∧ _))

/-- A line with a statement adds it. -/
lemma adds_statement {opening lead body : Text} {c : CodePoint} (h : Begins blocks opening lead)
    (hbody : body.toList.foldlM Place.inside? .code = some .code)
    (hlast : body.toList.getLast? = some c) (hc : isSpace c = false) :
    Adds blocks ((opening ++ body ++ ";").toList ++ [.char '\n']) [⟨blocks, lead ++ body⟩] blocks := by
  obtain ⟨hlead, hopening⟩ := h
  have hread := Scan.run_inside (s := ⟨.code, blocks, lead.toList, []⟩) hbody hlead
  have hend : (lead.toList ++ body.toList).getLast? = some c := by
    rw [List.getLast?_append, hlast]
    rfl
  have hclose (s : Scan) (hplace : s.place = .code) (hs : s.pending.getLast? = some c) :
      Scan.run s [.char ';', .char '\n'] =
        some ⟨.code, s.blocks, [], s.found ++ [⟨s.blocks, ofList s.pending⟩]⟩ := by
    have hstep : Scan.step s (.char ';') = some s.finished := by
      obtain ⟨place, blocks, pending, found⟩ := s
      cases hplace
      rfl
    rw [Scan.run_cons, hstep, Option.bind_some, finished_eq hs hc]
    rfl
  have hpieces : (opening ++ body ++ ";").toList ++ [.char '\n'] =
      opening.toList ++ (body.toList ++ [.char ';', .char '\n']) := by
    simp only [toList_append, List.append_assoc]
    rfl
  rw [Adds, hpieces, Scan.run_append, hopening, Option.bind_some, Scan.run_append, hread,
    Option.bind_some, hclose _ rfl hend]
  rfl

/-- A line that declares a value adds its statement. -/
lemma adds_declaration {opening lead : Text} {entry : Text × Text} (hopening : Begins blocks opening lead)
    (h : IsDeclarable entry) :
    Adds blocks ((opening ++ entry.1 ++ ": " ++ entry.2 ++ ";").toList ++ [.char '\n'])
      [declaration blocks lead entry] blocks := by
  obtain ⟨name, value⟩ := entry
  have hbody : (name ++ (": " ++ value)).toList.foldlM Place.inside? .code = some .code := by
    simp only [toList_append, List.foldlM_append, inside_name h.name]
    exact h.value.closed
  obtain ⟨c, hlast, hc⟩ := (Option.any_eq_true ..).1 h.value.last
  have hend : (name ++ (": " ++ value)).toList.getLast? = some c := by
    simp only [toList_append, List.getLast?_append, hlast]
    rfl
  have hadds := adds_statement hopening hbody hend (by simpa using hc)
  simpa only [declaration, append_assoc] using hadds

/-! ### Reading declarations back -/

/-- A declaration is read as its entry. -/
lemma declared?_declaration {lead : Text} {entry : Text × Text} (h : IsDeclarable entry) :
    (declaration blocks lead entry).declared? lead = some entry := by
  obtain ⟨name, value⟩ := entry
  have hcolon : ∀ c ∈ name.toList, c ≠ .char ':' := by
    rintro c hc rfl
    exact absurd (h.name _ hc) (by decide)
  have hspace : ∀ c ∈ name.toList, isSpace c = false := by
    intro c hc
    by_contra hblank
    have hname := h.name c hc
    simp only [isSpace, isLineEnd, Bool.not_eq_false, Bool.or_eq_true, beq_iff_eq] at hblank
    rcases hblank with (rfl | rfl) | (rfl | rfl) | rfl <;> exact absurd hname (by decide)
  have hdrop : (declaration blocks lead (name, value)).text.toList.dropPrefix? lead.toList =
      some (name.toList ++ .char ':' :: .char ' ' :: value.toList) := by
    refine List.dropPrefix?_eq_some_iff.2 ⟨lead.toList, ?_, beq_self_eq_true _⟩
    simp only [declaration, toList_append, List.append_assoc]
    rfl
  have htake : (name.toList ++ .char ':' :: .char ' ' :: value.toList).takeWhile (· ≠ .char ':') =
      name.toList := by
    rw [List.takeWhile_append_of_pos (by simpa using hcolon)]
    simp
  have hrest : (name.toList ++ .char ':' :: .char ' ' :: value.toList).dropWhile (· ≠ .char ':') =
      .char ':' :: .char ' ' :: value.toList := by
    rw [List.dropWhile_append_of_pos (by simpa using hcolon)]
    simp
  have hname : name.toList.rdropWhile isSpace = name.toList := by
    rw [List.rdropWhile_eq_self_iff]
    intro hne
    rw [hspace _ (List.getLast_mem hne)]
    exact Bool.false_ne_true
  have hvalue : (.char ' ' :: value.toList).dropWhile isSpace = value.toList := by
    obtain ⟨c, hfirst, hc⟩ := (Option.any_eq_true ..).1 h.value.first
    obtain ⟨rest, hlist⟩ := List.head?_eq_some_iff.1 hfirst
    rw [hlist, List.dropWhile_cons_of_pos (by decide), List.dropWhile_cons_of_neg (by simpa using hc)]
  rw [Statement.declared?, hdrop, Option.bind_some, hrest, htake, hname]
  simp only [hvalue]

variable {entries : List (Text × Text)}

lemma customProperties_append (statements others : List Statement) :
    customProperties (statements ++ others) = customProperties statements ++ customProperties others :=
  List.filterMap_append

lemma sheetVariables_append (statements others : List Statement) :
    sheetVariables (statements ++ others) = sheetVariables statements ++ sheetVariables others :=
  List.filterMap_append

lemma filterMap_eq_self {α β : Type} {f : α → β} {g : β → Option α} {items : List α}
    (h : ∀ item ∈ items, g (f item) = some item) : (items.map f).filterMap g = items := by
  induction items with
  | nil => rfl
  | cons item rest ih =>
    obtain ⟨hitem, hrest⟩ := List.forall_mem_cons.1 h
    rw [List.map_cons, List.filterMap_cons_some hitem, ih hrest]

lemma filterMap_map_eq_nil {α β γ : Type} {f : α → β} {g : β → Option γ} (h : ∀ item, g (f item) = none)
    (items : List α) : (items.map f).filterMap g = [] := by
  rw [List.filterMap_map, List.filterMap_eq_nil_iff]
  exact fun item _ => h item

/-- The custom properties of declarations for the page. -/
lemma customProperties_declarations (h : ∀ e ∈ entries, IsDeclarable e) :
    customProperties (entries.map (declaration pageBlocks "--")) = entries :=
  filterMap_eq_self fun e he => (if_pos rfl).trans (declared?_declaration (h e he))

lemma sheetVariables_declarations (h : ∀ e ∈ entries, IsDeclarable e) :
    sheetVariables (entries.map (declaration [] "$")) = entries :=
  filterMap_eq_self fun e he => (if_pos rfl).trans (declared?_declaration (h e he))

/-- What is declared in other blocks is no custom property of the page. -/
lemma customProperties_variables (entries : List (Text × Text)) :
    customProperties (entries.map (declaration [] "$")) = [] :=
  filterMap_map_eq_nil (fun _ => rfl) entries

lemma sheetVariables_properties (entries : List (Text × Text)) :
    sheetVariables (entries.map (declaration pageBlocks "--")) = [] :=
  filterMap_map_eq_nil (fun _ => rfl) entries

end

end Handoff.Token
