import Handoff.Proofs.Render.Printing
import Handoff.Proofs.Render.TopLevel
import Handoff.Proofs.Token.Statements
import Handoff.Token.Sheet

/-!
What the two style files of the tokens declare.

Read back from its text, the tokens file declares every token as a custom property and as a variable,
and the partial loads a sheet and declares the shared properties. This holds for names and values that
stay what they are wherever they stand.
-/

namespace Handoff.Token

open Asset Files Render Text
open Render.Reader (ended ended_nil ended_cons ended_append)

/-! ### The tokens file -/

lemma toList_unlines {lines : List Text} (h : lines ≠ []) :
    (unlines lines).toList ++ [.char '\n'] = ended lines := by
  induction lines with
  | nil => exact absurd rfl h
  | cons line rest ih =>
    by_cases hrest : rest = []
    · rw [hrest, unlines_singleton, ended_cons, ended_nil]
    · rw [unlines_cons line hrest, ended_cons, ← ih hrest]
      simp only [toList_append, List.append_assoc]
      rfl

lemma statements?_of_adds {sheet : Text} {found : List Statement}
    (h : Adds [] (sheet.toList ++ [.char '\n']) found []) : statements? sheet = some found := by
  rw [statements?, h]
  rfl

/-- The tokens of all groups, in the order in which they are written. -/
def Tokens.entries (tokens : Tokens) : List (Text × Text) := Group.all.flatMap tokens.group

/-- All tokens can be declared. -/
def Tokens.AreDeclarable (tokens : Tokens) : Prop := ∀ e ∈ tokens.entries, IsDeclarable e

instance (tokens : Tokens) : Decidable tokens.AreDeclarable :=
  inferInstanceAs (Decidable (∀ e ∈ tokens.entries, IsDeclarable e))

lemma Group.mem_all (group : Group) : group ∈ Group.all := by cases group <;> decide

lemma Tokens.mem_entries {tokens : Tokens} {entry : Text × Text} :
    entry ∈ tokens.entries ↔ ∃ group, entry ∈ tokens.group group := by
  simp [Tokens.entries, Group.mem_all]

section

variable {tokens : Tokens} {blocks : List Text}

/-- The lines of the groups add the declarations of the tokens. -/
lemma adds_groupLines {heading lead : Text} {line : Text → Text → Text}
    (hheading : ∀ group : Group, Adds blocks ((heading ++ group.label).toList ++ [.char '\n']) [] blocks)
    (hempty : Adds blocks (ended ([""] : Lines)) [] blocks)
    (hline : ∀ e ∈ tokens.entries,
      Adds blocks ((line e.1 e.2).toList ++ [.char '\n']) [declaration blocks lead e] blocks) :
    Adds blocks (ended (groupLines tokens heading line))
      (tokens.entries.map (declaration blocks lead)) blocks := by
  rw [groupLines, Tokens.entries, ended, List.flatMap_assoc, List.map_flatMap]
  refine .flatMap fun group _ => ?_
  have hentries : ∀ e ∈ tokens.group group, Adds blocks ((line e.1 e.2).toList ++ [.char '\n'])
      [declaration blocks lead e] blocks :=
    fun e he => hline e (Tokens.mem_entries.2 ⟨group, he⟩)
  have hlines : Adds blocks (ended ((tokens.group group).map fun e => line e.1 e.2))
      ((tokens.group group).map (declaration blocks lead)) blocks := by
    rw [ended, List.flatMap_map, List.map_eq_flatMap]
    exact .flatMap hentries
  split
  · rename_i hnil
    rw [hnil]
    exact .nil
  · have hall := ((hheading group).append hlines).append hempty
    rw [List.nil_append, List.append_nil] at hall
    rw [← ended, ended_append, ended_cons]
    simpa only [List.append_assoc, List.singleton_append] using hall

/-- The statements of the tokens file: every token as a custom property and as a variable. -/
theorem statements?_tokensSheet (h : tokens.AreDeclarable) :
    statements? (tokensSheet tokens) = some (tokens.entries.map (declaration pageBlocks "--") ++
      tokens.entries.map (declaration [] "$")) := by
  have hhead : Adds [] (ended (["/**",
      " * Design Tokens",
      " * Auto-generated from Figma",
      " * Do not edit manually",
      " */",
      "",
      "// Export tokens as CSS custom properties",
      ":root \x7b"] : Lines)) [] pageBlocks := by decide +kernel
  have hproperties : Adds pageBlocks (ended (groupLines tokens "  // " propertyLine))
      (tokens.entries.map (declaration pageBlocks "--")) pageBlocks := by
    have hbegins : Begins pageBlocks "  --" "--" := by decide
    refine adds_groupLines (fun group => ?_) (by decide) fun e he => adds_declaration hbegins (h e he)
    cases group <;> decide +kernel
  have hmiddle : Adds pageBlocks (ended (["\x7d", "", "// SCSS Variables", ""] : Lines)) [] [] := by
    decide +kernel
  have hvariables : Adds [] (ended (groupLines tokens "// " variableLine))
      (tokens.entries.map (declaration [] "$")) [] := by
    have hbegins : Begins [] "$" "$" := by decide
    refine adds_groupLines (fun group => ?_) (by decide) fun e he => adds_declaration hbegins (h e he)
    cases group <;> decide +kernel
  have hall := ((hhead.append hproperties).append hmiddle).append hvariables
  refine statements?_of_adds ?_
  rw [tokensSheet, toList_unlines (by simp), ended_append, ended_append, ended_append]
  simpa only [List.nil_append, List.append_nil] using hall

end

/-- The custom properties and the variables of the tokens file are the tokens. -/
theorem declared_tokensSheet {tokens : Tokens} (h : tokens.AreDeclarable) :
    ∃ found, statements? (tokensSheet tokens) = some found ∧ usedSheets found = [] ∧
      customProperties found = tokens.entries ∧ sheetVariables found = tokens.entries := by
  refine ⟨_, statements?_tokensSheet h, ?_, ?_, ?_⟩
  · rw [usedSheets, List.filterMap_append, filterMap_map_eq_nil fun _ => rfl,
      filterMap_map_eq_nil fun _ => rfl, List.append_nil]
  · rw [customProperties_append, customProperties_declarations h, customProperties_variables,
      List.append_nil]
  · rw [sheetVariables_append, sheetVariables_properties, sheetVariables_declarations h,
      List.nil_append]

/-- The tokens file declares the tokens, each as a custom property and as a variable, when their values
stay what they are wherever they stand. -/
def Tokens.AreWritten (tokens : Tokens) : Prop :=
  (∀ e ∈ tokens.entries, IsTokenValue e.2) → ∃ found, statements? (tokensSheet tokens) = some found ∧
    customProperties found = tokens.entries ∧ sheetVariables found = tokens.entries

/-- Tokens are written when their names have the characters of names. -/
lemma Tokens.areWritten {tokens : Tokens} (h : ∀ e ∈ tokens.entries, Over isTokenNameChar e.1) :
    tokens.AreWritten := by
  intro hvalues
  obtain ⟨found, hfound, -, hproperties, hvariables⟩ :=
    declared_tokensSheet fun e he => ⟨h e he, hvalues e he⟩
  exact ⟨found, hfound, hproperties, hvariables⟩

/-! ### The partial -/

/-- A path that can stand between apostrophes. -/
def IsQuotable (path : Text) : Prop :=
  Over (fun c => !isLineEnd c && c != '{' && c != '\\' && c != apostrophe) path

instance : DecidablePred IsQuotable := fun path =>
  inferInstanceAs (Decidable (∀ c ∈ path.toList,
    (!isLineEnd c && c != '{' && c != '\\' && c != apostrophe) = true))

/-- The properties of the partial, block after block. -/
def sharedEntries : List (Text × Text) := sharedProperties.flatten

lemma isDeclarable_sharedEntries : ∀ e ∈ sharedEntries, IsDeclarable e := by decide +kernel

section

variable {path : Text}

/-- Nothing in the path ends the string around it. -/
lemma inside_quoted {text : List CodePoint} (h : ∀ c ∈ text,
    (!isLineEnd c && c != '{' && c != '\\' && c != apostrophe) = true) :
    (text ++ [CodePoint.char apostrophe]).foldlM Place.inside? (.quoted apostrophe) = some .code := by
  induction text with
  | nil => decide
  | cons c rest ih =>
    obtain ⟨hc, hrest⟩ := List.forall_mem_cons.1 h
    simp only [Bool.and_eq_true, Bool.not_eq_true', bne_iff_ne] at hc
    obtain ⟨⟨⟨hline, hbrace⟩, hescape⟩, hquote⟩ := hc
    have hstep : Place.inside? (.quoted apostrophe) c = some (.quoted apostrophe) := by
      simp [Place.inside?, hline, hbrace, hescape, hquote]
    rw [List.cons_append, List.foldlM_cons, hstep]
    exact ih hrest

/-- The statement that loads a sheet. -/
def useStatement (path : Text) : Statement := ⟨[], "@use " ++ ("'" ++ path ++ "'")⟩

lemma adds_use (h : IsQuotable path) :
    Adds [] (("@use '" ++ path ++ "';").toList ++ [.char '\n']) [useStatement path] [] := by
  have hbody : ("'" ++ path ++ "'" : Text).toList.foldlM Place.inside? .code = some .code := by
    have hpieces : ("'" ++ path ++ "'" : Text).toList =
        CodePoint.char apostrophe :: (path.toList ++ [.char apostrophe]) := by
      simp only [toList_append, List.append_assoc]
      rfl
    rw [hpieces, List.foldlM_cons]
    exact inside_quoted h
  have hlast : ("'" ++ path ++ "'" : Text).toList.getLast? = some (.char apostrophe) := by
    rw [toList_append, List.getLast?_append]
    rfl
  have hbegins : Begins [] "@use " "@use " := by decide
  have hadds : Adds [] (("@use " ++ ("'" ++ path ++ "'") ++ ";" : Text).toList ++ [.char '\n'])
      [useStatement path] [] := adds_statement hbegins hbody hlast (by decide)
  have hline : ("@use '" ++ path ++ "';" : Text) = "@use " ++ ("'" ++ path ++ "'") ++ ";" := by
    refine ext_toList ?_
    simp only [toList_append, List.append_assoc]
    rfl
  rwa [hline]

lemma use?_useStatement (path : Text) : (useStatement path).use? = some path := by
  have hdrop : (useStatement path).text.toList.dropPrefix? ("@use '" : Text).toList =
      some (path.toList ++ [.char apostrophe]) := by
    refine List.dropPrefix?_eq_some_iff.2 ⟨_, ?_, beq_self_eq_true _⟩
    simp only [useStatement, toList_append]
    rfl
  rw [Statement.use?, hdrop, Option.bind_some, if_pos (by simp), List.dropLast_concat]

/-- Blocks of declarations with empty lines between them. -/
lemma adds_blocks {blocks : List (List (Text × Text))} (h : ∀ e ∈ blocks.flatten, IsDeclarable e) :
    Adds pageBlocks (ended (List.intercalate ([""] : Lines) (blocks.map fun block =>
      block.map fun e => propertyLine e.1 e.2)))
      (blocks.flatten.map (declaration pageBlocks "--")) pageBlocks := by
  have hbegins : Begins pageBlocks "  --" "--" := by decide
  have hlines {block : List (Text × Text)} (hblock : ∀ e ∈ block, IsDeclarable e) :
      Adds pageBlocks (ended (block.map fun e => propertyLine e.1 e.2))
        (block.map (declaration pageBlocks "--")) pageBlocks := by
    rw [ended, List.flatMap_map, List.map_eq_flatMap]
    exact .flatMap fun e he => adds_declaration hbegins (hblock e he)
  have hempty : Adds pageBlocks (ended ([""] : Lines)) [] pageBlocks := by decide
  induction blocks with
  | nil => exact .nil
  | cons block rest ih =>
    rw [List.flatten_cons, List.forall_mem_append] at h
    cases rest with
    | nil => simpa using hlines h.1
    | cons next others =>
      have hrest := hempty.append (ih h.2)
      rw [List.map_cons, List.map_cons, List.intercalate_cons_cons, ← List.map_cons, ended_append,
        ended_append, List.append_assoc, List.flatten_cons, List.map_append]
      exact (hlines h.1).append hrest

/-- The statements of the partial: it loads a sheet and declares its own properties. -/
theorem statements?_variablesSheet (h : IsQuotable path) : statements? (variablesSheet path) =
    some (useStatement path :: sharedEntries.map (declaration pageBlocks "--")) := by
  have hhead : Adds [] (ended (["// Design System Variables",
      "// Auto-generated from Figma",
      "",
      "// Import main tokens"] : Lines)) [] [] := by decide +kernel
  have huse : Adds [] (ended ["@use '" ++ path ++ "';"]) [useStatement path] [] := by
    rw [ended_cons, ended_nil]
    exact adds_use h
  have hopen : Adds [] (ended (["", "// CSS Variables", ":root \x7b"] : Lines)) [] pageBlocks := by
    decide +kernel
  have hclose : Adds pageBlocks (ended (["\x7d", ""] : Lines)) [] [] := by decide
  have hproperties : Adds pageBlocks (ended (List.intercalate ([""] : Lines)
      (sharedProperties.map fun block => block.map fun e => propertyLine e.1 e.2)))
      (sharedEntries.map (declaration pageBlocks "--")) pageBlocks :=
    adds_blocks isDeclarable_sharedEntries
  have hall := (((hhead.append huse).append hopen).append hproperties).append hclose
  have hlines : variablesSheet path = unlines ((["// Design System Variables",
      "// Auto-generated from Figma",
      "",
      "// Import main tokens"] : Lines) ++ ["@use '" ++ path ++ "';"] ++
      (["", "// CSS Variables", ":root \x7b"] : Lines) ++
      List.intercalate ([""] : Lines) (sharedProperties.map fun block =>
        block.map fun e => propertyLine e.1 e.2) ++ (["\x7d", ""] : Lines)) := rfl
  refine statements?_of_adds ?_
  rw [hlines, toList_unlines (by simp), ended_append, ended_append, ended_append, ended_append]
  rw [List.nil_append, List.append_nil, List.append_nil, List.singleton_append] at hall
  exact hall

/-- The partial loads a sheet, and its custom properties are the shared ones. -/
theorem declared_variablesSheet (h : IsQuotable path) :
    ∃ found, statements? (variablesSheet path) = some found ∧ usedSheets found = [path] ∧
      customProperties found = sharedEntries := by
  have hnone : (sharedEntries.map (declaration pageBlocks "--")).filterMap
      (fun s => if s.blocks = [] then s.use? else none) = [] :=
    filterMap_map_eq_nil (fun _ => rfl) sharedEntries
  refine ⟨_, statements?_variablesSheet h, ?_, ?_⟩
  · have huse : (if (useStatement path).blocks = [] then (useStatement path).use? else none) =
        some path := (if_pos rfl).trans (use?_useStatement path)
    rw [usedSheets, List.filterMap_cons]
    simp only [huse, hnone]
  · have hproperty : (if (useStatement path).blocks = pageBlocks then
        (useStatement path).declared? "--" else none) = none := if_neg nofun
    rw [customProperties, List.filterMap_cons]
    simp only [hproperty]
    exact customProperties_declarations isDeclarable_sharedEntries

end

end Handoff.Token
