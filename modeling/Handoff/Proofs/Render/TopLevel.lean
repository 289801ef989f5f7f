import Handoff.Proofs.Render.Identifiers
import Handoff.Proofs.Text.ScriptLiterals
import Handoff.Render.Catalog
import Mathlib.Data.List.Basic

/-!
A catalog declares distinct names at its top level: the library, the component, what its stories are
made from, and the stories.

The names are read off the lines of the text. Most lines of a catalog declare nothing, since none that
does begins with a blank, a bracket, a star or a capital letter.
-/

namespace Handoff.Render

open Naming Scope Text

/-! ### Reading declarations -/

/-- What may stand in front of a name that a line declares. -/
def openings : List Text := ["import ", "import \x7b ", "export const ", "const "]

/-- The identifier at the beginning of a text. -/
def leadingName (text : List CodePoint) : Option Text :=
  match text.takeWhile isNameChar with
  | [] => none
  | name => some (ofList name)

/-- The identifier behind an opening. -/
def nameAfter (opening : Text) (line : List CodePoint) : Option Text :=
  (line.dropPrefix? opening.toList).bind leadingName

/-- The name that a line declares. An indented line belongs to something else and declares none. -/
def declaredBy (line : List CodePoint) : Option Text :=
  openings.findSome? fun opening => nameAfter opening line

/-- The names that a script declares at its top level, line by line. -/
def topLevelNames (text : Text) : List Text :=
  (text.toList.splitOn (.char '\n')).filterMap declaredBy

example : topLevelNames "import \x7b Card \x7d from './Card';\nimport './Card.scss';\n  const x = 1;" =
    ["Card"] := by
  decide +kernel

lemma declaredBy_nil : declaredBy [] = none := rfl

lemma topLevelNames_lineEnd (line rest : Text) :
    topLevelNames (line ++ "\n" ++ rest) = topLevelNames line ++ topLevelNames rest := by
  have hlist : (line ++ "\n" ++ rest).toList = line.toList ++ .char '\n' :: rest.toList :=
    List.append_assoc ..
  simp only [topLevelNames, hlist, List.splitOn_append_cons_self, List.filterMap_append]

lemma unlines_cons (line : Text) {rest : List Text} (h : rest ≠ []) :
    unlines (line :: rest) = line ++ "\n" ++ unlines rest := by
  obtain ⟨next, others, rfl⟩ := List.exists_cons_of_ne_nil h
  exact ext_toList (by simp [unlines, Text.intercalate, List.intercalate_cons_cons])

lemma unlines_singleton (line : Text) : unlines [line] = line :=
  ext_toList (by simp [unlines, Text.intercalate])

/-- Lines one below the other declare what each declares. -/
lemma topLevelNames_unlines (lines : List Text) :
    topLevelNames (unlines lines) = lines.flatMap topLevelNames := by
  induction lines with
  | nil => simp [topLevelNames, unlines, Text.intercalate, declaredBy_nil]
  | cons line rest ih =>
    by_cases hrest : rest = []
    · rw [hrest, unlines_singleton, List.flatMap_cons, List.flatMap_nil, List.append_nil]
    · rw [unlines_cons line hrest, topLevelNames_lineEnd, ih, List.flatMap_cons]

/-! ### Texts on one line -/

/-- A text without line ends. -/
def OneLine (text : Text) : Prop := ∀ c ∈ text.toList, c ≠ .char '\n'

instance : DecidablePred OneLine := fun text => inferInstanceAs (Decidable (∀ c ∈ text.toList, _))

lemma oneLine_append {a b : Text} : OneLine (a ++ b) ↔ OneLine a ∧ OneLine b := by
  simp only [OneLine, toList_append, List.forall_mem_append]

lemma oneLine_of_over {p : CodePoint → Bool} {text : Text} (h : Over p text)
    (hp : p (.char '\n') = false) : OneLine text := by
  rintro c hc rfl
  exact absurd (h _ hc) (by simp [hp])

lemma oneLine_slotName (slot : Nat) : OneLine (slotName slot) :=
  oneLine_of_over (wordy_slotName slot) (by decide)

lemma oneLine_numeral (n : Nat) : OneLine (toString n : Text) :=
  oneLine_of_over (over_numeral n) (by decide)

/-- A literal is written on one line whatever it denotes. -/
lemma oneLine_scriptLiteral (text : Text) : OneLine (scriptLiteral text) := by
  rintro c hc rfl
  cases breaksScript_scriptLiteral text _ hc

/-- A text on one line declares what the line declares. -/
lemma topLevelNames_of_oneLine {text : Text} (h : OneLine text) :
    topLevelNames text = (declaredBy text.toList).toList := by
  rw [topLevelNames, List.splitOn_eq_singleton fun hmem => h _ hmem rfl]
  cases hline : declaredBy text.toList <;> simp [hline]

/-! ### Texts that declare nothing -/

/-- The characters with which no declaration begins. -/
def isQuietChar (c : CodePoint) : Bool := !([.char 'i', .char 'e', .char 'c'] : List CodePoint).contains c

/-- No line of a text begins like a declaration, whatever stands in front of the text. -/
structure IsQuiet (text : Text) : Prop where
  first : ∀ c rest, text.toList = c :: rest → isQuietChar c = true
  later : ∀ before c after, text.toList = before ++ .char '\n' :: c :: after → isQuietChar c = true

namespace IsQuiet

variable {a b : Text}

lemma append (ha : IsQuiet a) (hb : IsQuiet b) : IsQuiet (a ++ b) where
  first c rest h := by
    rw [toList_append] at h
    cases hlist : a.toList with
    | nil => exact hb.first c rest (by simpa [hlist] using h)
    | cons d others =>
      rw [hlist] at h
      cases h
      exact ha.first c others hlist
  later before c after h := by
    rw [toList_append] at h
    rcases List.append_eq_append_iff.1 h with ⟨as, -, has⟩ | ⟨as, has, hrest⟩
    · exact hb.later as c after has
    · -- The line may end in the first text and begin in the second.
      rcases as with _ | ⟨d, _ | ⟨d', as⟩⟩
      · exact hb.later [] c after (by simpa using hrest.symm)
      · obtain ⟨-, hrest⟩ := List.cons.inj hrest
        exact hb.first c after hrest.symm
      · obtain ⟨hend, hrest⟩ := List.cons.inj hrest
        cases hend
        cases hrest
        exact ha.later before _ as has

lemma of_oneLine (h : OneLine a) (hfirst : a.toList.head?.all isQuietChar = true) : IsQuiet a where
  first c rest hl := by simpa [hl] using hfirst
  later before c after hl := absurd rfl (h (.char '\n') (by simp [hl]))

lemma empty : IsQuiet "" := of_oneLine (by decide) rfl

lemma lineEnd : IsQuiet "\n" where
  first c rest h := by
    cases h
    decide
  later before c after h := by
    have hlength := congrArg List.length h
    simp at hlength
    omega

lemma intercalate {sep : Text} (hsep : IsQuiet sep) {texts : List Text}
    (h : ∀ text ∈ texts, IsQuiet text) : IsQuiet (Text.intercalate sep texts) := by
  induction texts with
  | nil => exact empty
  | cons text rest ih =>
    obtain ⟨htext, hrest⟩ := List.forall_mem_cons.1 h
    cases rest with
    | nil =>
      have hsingle : Text.intercalate sep [text] = text := ext_toList (by simp [Text.intercalate])
      rwa [hsingle]
    | cons next others =>
      have hsplit : Text.intercalate sep (text :: next :: others) =
          text ++ (sep ++ Text.intercalate sep (next :: others)) :=
        ext_toList (by simp [Text.intercalate, List.intercalate_cons_cons])
      rw [hsplit]
      exact htext.append (hsep.append (ih hrest))

lemma unlines {lines : List Text} (h : ∀ line ∈ lines, IsQuiet line) : IsQuiet (unlines lines) :=
  intercalate lineEnd h

end IsQuiet

/-- Every declaration begins with one of three letters. -/
lemma declaredBy_eq_none {line : List CodePoint} (h : line.head?.all isQuietChar = true) :
    declaredBy line = none := by
  refine List.findSome?_eq_none_iff.2 fun opening hopening => ?_
  have hloud : opening.toList.head?.any (fun c => !isQuietChar c) = true := by
    revert opening
    decide
  suffices hdrop : line.dropPrefix? opening.toList = none by
    rw [nameAfter, hdrop]
    rfl
  rw [Option.eq_none_iff_forall_ne_some]
  intro rest hrest
  obtain ⟨front, rfl, hfront⟩ := List.dropPrefix?_eq_some_iff.1 hrest
  cases LawfulBEq.eq_of_beq hfront
  cases hlist : opening.toList with
  | nil => simp [hlist] at hloud
  | cons c more =>
    simp only [hlist, List.head?_cons, Option.any_some, List.cons_append, Option.all_some] at hloud h
    rw [h] at hloud
    cases hloud

/-- A quiet text declares nothing. -/
lemma topLevelNames_of_quiet {text : Text} (h : IsQuiet text) : topLevelNames text = [] := by
  have hfirst {text : Text} (h : IsQuiet text) : text.toList.head?.all isQuietChar = true := by
    cases hlist : text.toList with
    | nil => rfl
    | cons c rest => exact h.first c rest hlist
  -- The induction takes off one line after the other.
  induction hlength : text.toList.length using Nat.strong_induction_on generalizing text with
  | _ n ih =>
    by_cases hline : OneLine text
    · rw [topLevelNames_of_oneLine hline, declaredBy_eq_none (hfirst h)]
      rfl
    · obtain ⟨c, hc, rfl⟩ : ∃ c ∈ text.toList, c = .char '\n' := by simpa [OneLine] using hline
      obtain ⟨line, rest, hsplit, hnone⟩ := List.eq_append_cons_of_mem hc
      have htext : text = ofList line ++ "\n" ++ ofList rest :=
        ext_toList (hsplit.trans (by simp))
      have hone : OneLine (ofList line) := fun c hc he => hnone (he ▸ hc)
      have hline : IsQuiet (ofList line) := .of_oneLine hone <| by
        cases line with
        | nil => rfl
        | cons c more => exact h.first c _ hsplit
      have hrest : IsQuiet (ofList rest) := by
        refine ⟨fun c more hl => h.later line c more ?_, fun before c after hl =>
          h.later (line ++ .char '\n' :: before) c after ?_⟩
        · rw [hsplit, ← hl]
        · rw [hsplit, List.append_assoc, List.cons_append, ← hl]
      rw [htext, topLevelNames_lineEnd, topLevelNames_of_oneLine hone, declaredBy_eq_none (hfirst hline),
        ih rest.length ?_ hrest rfl]
      · rfl
      · rw [← hlength, hsplit]
        simp
        omega

/-! ### Declarations -/

lemma leadingName_eq {name more : Text} (hword : Over isWordChar name) (hne : name ≠ "")
    (hend : more.toList.head?.all (fun c => !isNameChar c) = true) :
    leadingName (name ++ more).toList = some name := by
  have hname : ∀ d ∈ name.toList, isNameChar d = true := fun d hd => by
    simp [isNameChar, isHandleChar, hword d hd]
  have hmore : more.toList.takeWhile isNameChar = [] := by
    cases hlist : more.toList with
    | nil => rfl
    | cons c rest =>
      rw [hlist] at hend
      exact List.takeWhile_cons_of_neg (by simpa using hend)
  have htake : (name ++ more).toList.takeWhile isNameChar = name.toList := by
    rw [toList_append, List.takeWhile_append_of_pos hname, hmore, List.append_nil]
  unfold leadingName
  rw [htake]
  split
  · rename_i hnil
    exact absurd (ext_toList hnil) hne
  · rfl

lemma nameAfter_append (opening : Text) (text : List CodePoint) :
    nameAfter opening (opening.toList ++ text) = leadingName text := by
  have hdrop : (opening.toList ++ text).dropPrefix? opening.toList = some text :=
    List.dropPrefix?_eq_some_iff.2 ⟨opening.toList, rfl, beq_self_eq_true _⟩
  rw [nameAfter, hdrop, Option.bind_some]

lemma declaredBy_eq {opening : Text} (hopening : opening ∈ openings) {text : List CodePoint}
    {name : Text} (h : leadingName text = some name) :
    declaredBy (opening.toList ++ text) = some name := by
  have hfound : nameAfter opening (opening.toList ++ text) = some name :=
    (nameAfter_append opening text).trans h
  simp only [openings, List.mem_cons, List.not_mem_nil, or_false] at hopening
  unfold declaredBy openings
  -- No other opening that comes first fits and has a name behind it.
  rcases hopening with rfl | rfl | rfl | rfl
  · rw [List.findSome?_cons, hfound]
  · have himport : nameAfter "import " (("import \x7b " : Text).toList ++ text) = none := by
      have hsplit : ("import \x7b " : Text).toList ++ text =
          ("import " : Text).toList ++ (("\x7b " : Text).toList ++ text) := rfl
      rw [hsplit, nameAfter_append]
      rfl
    rw [List.findSome?_cons, himport, List.findSome?_cons, hfound]
  · have himport : nameAfter "import " (("export const " : Text).toList ++ text) = none := rfl
    have hbraced : nameAfter "import \x7b " (("export const " : Text).toList ++ text) = none := rfl
    rw [List.findSome?_cons, himport, List.findSome?_cons, hbraced, List.findSome?_cons, hfound]
  · have himport : nameAfter "import " (("const " : Text).toList ++ text) = none := rfl
    have hbraced : nameAfter "import \x7b " (("const " : Text).toList ++ text) = none := rfl
    have hexport : nameAfter "export const " (("const " : Text).toList ++ text) = none := rfl
    rw [List.findSome?_cons, himport, List.findSome?_cons, hbraced, List.findSome?_cons, hexport,
      List.findSome?_cons, hfound]

/-- A line that begins with an opening and a name declares the name. -/
lemma topLevelNames_declaration {opening name more : Text} (hopening : opening ∈ openings)
    (hword : Over isWordChar name) (hne : name ≠ "") (hmore : OneLine more)
    (hend : more.toList.head?.all (fun c => !isNameChar c) = true) :
    topLevelNames (opening ++ name ++ more) = [name] := by
  have hplain : ∀ opening ∈ openings, OneLine opening := by decide
  have hline : OneLine (opening ++ name ++ more) := oneLine_append.2
    ⟨oneLine_append.2 ⟨hplain opening hopening, oneLine_of_over hword (by decide)⟩, hmore⟩
  have hdeclared := declaredBy_eq hopening (leadingName_eq hword hne hend)
  rw [← toList_append, ← append_assoc] at hdeclared
  rw [topLevelNames_of_oneLine hline, hdeclared]
  rfl

/-! ### Described properties -/

variable {component : Component} {text : Text}

lemma flatMap_topLevelNames_of_quiet {lines : List Text} (h : ∀ line ∈ lines, IsQuiet line) :
    lines.flatMap topLevelNames = [] :=
  List.flatMap_eq_nil_iff.2 fun line hline => topLevelNames_of_quiet (h line hline)

lemma quiet_argType {arg : ArgType} (hname : OneLine arg.name) (hdescription : OneLine arg.description) :
    IsQuiet (unlines arg.lines) := by
  have hquoted {text : Text} (h : OneLine text) : OneLine (quoted text) :=
    oneLine_append.2 ⟨oneLine_append.2 ⟨by decide, h⟩, by decide⟩
  have hfirst : OneLine ("    " ++ quoted arg.name ++ ": \x7b") :=
    oneLine_append.2 ⟨oneLine_append.2 ⟨by decide, hquoted hname⟩, by decide⟩
  have hthird : OneLine ("        \"description\": " ++ quoted arg.description) :=
    oneLine_append.2 ⟨by decide, hquoted hdescription⟩
  refine .unlines ?_
  simp only [ArgType.lines, List.forall_mem_cons]
  exact ⟨.of_oneLine hfirst rfl, .of_oneLine (by decide) rfl, .of_oneLine hthird rfl,
    .of_oneLine (by decide) rfl, List.forall_mem_nil _⟩

lemma oneLine_textProps : ∀ prop ∈ component.textProps, OneLine prop.1 := by
  intro prop hprop
  have hname : prop.1 ∈ component.textProps.map Prod.fst := List.mem_map_of_mem hprop
  rw [names_of_textProps] at hname
  obtain ⟨slot, -, hslot⟩ := List.mem_map.1 hname
  rw [← hslot]
  exact oneLine_slotName slot

lemma oneLine_argTypes : ∀ arg ∈ argTypes component, OneLine arg.name ∧ OneLine arg.description := by
  unfold argTypes
  refine List.forall_mem_append.2 ⟨List.forall_mem_cons.2 ⟨by decide, ?_⟩, ?_⟩
  · intro arg harg
    obtain ⟨p, hp, rfl⟩ := List.mem_map.1 harg
    exact ⟨oneLine_textProps p.1 (List.fst_mem_of_mem_zipIdx hp),
      oneLine_append.2 ⟨by decide, oneLine_numeral _⟩⟩
  · split
    · decide
    · exact List.forall_mem_nil _

lemma quiet_argTypesText : IsQuiet (argTypesText (argTypes component)) := by
  have hopen : IsQuiet ("\x7b" ++ "\n") := (IsQuiet.of_oneLine (by decide) rfl).append .lineEnd
  have hbetween : IsQuiet ("," ++ "\n") := (IsQuiet.of_oneLine (by decide) rfl).append .lineEnd
  have hclose : IsQuiet ("\n" ++ "\x7d") := IsQuiet.lineEnd.append (.of_oneLine (by decide) rfl)
  have hargs : IsQuiet (Text.intercalate ",\n" ((argTypes component).map fun arg => unlines arg.lines)) := by
    refine .intercalate hbetween fun text htext => ?_
    obtain ⟨arg, harg, rfl⟩ := List.mem_map.1 htext
    obtain ⟨hname, hdescription⟩ := oneLine_argTypes arg harg
    exact quiet_argType hname hdescription
  exact (hopen.append hargs).append hclose

/-! ### Stories -/

/-- A story with a plain name and one line for each property that it sets. -/
structure Story.IsPlain (story : Story) : Prop where
  word : Over isWordChar story.name
  large : BeginsLarge story.name
  args : ∀ arg ∈ story.args, OneLine arg.name ∧ OneLine arg.default

lemma isQuietChar_of_capital {c : CodePoint} (h : isCapital c = true) : isQuietChar c = true := by
  by_contra hquiet
  simp only [isQuietChar, Bool.not_eq_true', Bool.not_eq_false, List.contains_iff_mem, List.mem_cons,
    List.not_mem_nil, or_false] at hquiet
  rcases hquiet with rfl | rfl | rfl <;> exact absurd h (by decide)

lemma ne_empty_of_large {name : Text} (h : BeginsLarge name) : name ≠ "" := by
  rintro rfl
  cases h

/-- A story declares its name. -/
lemma topLevelNames_story {story : Story} (h : story.IsPlain) :
    story.lines.flatMap topLevelNames = [story.name] := by
  have hdeclared : topLevelNames ("export const " ++ story.name ++ " = Template.bind(\x7b\x7d);") =
      [story.name] :=
    topLevelNames_declaration (by decide) h.word (ne_empty_of_large h.large) (by decide) (by decide)
  have hname : OneLine story.name := oneLine_of_over h.word (by decide)
  have hsetting {more : Text} (hmore : OneLine more) : IsQuiet (story.name ++ more) := by
    refine .of_oneLine (oneLine_append.2 ⟨hname, hmore⟩) ?_
    obtain ⟨c, rest, hl, hc⟩ := beginsLarge_iff.1 h.large
    rw [toList_append, hl]
    exact isQuietChar_of_capital hc
  have hargs : ∀ line ∈ story.args.map argLine, IsQuiet line := by
    intro line hline
    obtain ⟨arg, harg, rfl⟩ := List.mem_map.1 hline
    obtain ⟨hname, hdefault⟩ := h.args arg harg
    have hline : OneLine (argLine arg) := oneLine_append.2 ⟨oneLine_append.2
      ⟨oneLine_append.2 ⟨oneLine_append.2 ⟨by decide, hname⟩, by decide⟩, hdefault⟩, by decide⟩
    exact .of_oneLine hline rfl
  rw [Story.lines, List.flatMap_cons, List.flatMap_cons, topLevelNames_of_quiet .empty, hdeclared]
  split
  · rw [List.flatMap_cons, topLevelNames_of_quiet (hsetting (by decide))]
    rfl
  · have hlast : topLevelNames "\x7d;" = [] :=
      topLevelNames_of_quiet (.of_oneLine (by decide) rfl)
    rw [List.flatMap_append, List.flatMap_cons, topLevelNames_of_quiet (hsetting (by decide)),
      flatMap_topLevelNames_of_quiet hargs, List.flatMap_cons, hlast]
    rfl

/-- The names of a component's stories. -/
def storyNames (component : Component) : List Text :=
  (["Default"] : List Text) ++ (if component.hasAssets then (["WithImage"] : List Text) else []) ++
    (["WithCustomClass"] : List Text)

lemma isPlain_of_stories {list : List Story} (h : stories component = .ok list) :
    list.map Story.name = storyNames component ∧ ∀ story ∈ list, story.IsPlain := by
  obtain ⟨texts, htexts, h⟩ := bind_eq_ok.1 h
  cases h
  have hargs : ∀ arg ∈ texts, OneLine arg.name ∧ OneLine arg.default := by
    intro arg harg
    obtain ⟨prop, hprop, harg⟩ := exists_of_mem_forall₂ (forall₂_of_mapM htexts) harg
    obtain ⟨value, -, harg⟩ := bind_eq_ok.1 harg
    cases harg
    exact ⟨oneLine_textProps prop hprop, oneLine_scriptLiteral value⟩
  have hplain : OneLine "imageSrc" ∧ OneLine "imageAlt" ∧ OneLine "className" := by decide
  have hword {name : String} (h : name.toList.all (fun c => isWordChar c) = true) :
      Over isWordChar name := over_ofString h
  unfold storyNames
  constructor
  · cases component.hasAssets <;> rfl
  · refine List.forall_mem_append.2 ⟨List.forall_mem_cons.2 ⟨⟨hword rfl, rfl, hargs⟩, ?_⟩,
      List.forall_mem_singleton.2 ⟨hword rfl, rfl, ?_⟩⟩
    · split
      · refine List.forall_mem_singleton.2 ⟨hword rfl, rfl, ?_⟩
        exact List.forall_mem_cons.2 ⟨⟨hplain.1, oneLine_scriptLiteral _⟩,
          List.forall_mem_singleton.2 ⟨hplain.2.1, oneLine_scriptLiteral _⟩⟩
      · exact List.forall_mem_nil _
    · exact List.forall_mem_singleton.2 ⟨hplain.2.2, oneLine_scriptLiteral _⟩

/-! ### Whole catalogs -/

/-- The lines of a catalog between the imports and what its stories are made from. -/
def catalogHead (component : Component) (display : Text) : List Text :=
  (["",
   "/**",
   " * " ++ component.name ++ " Component Stories",
   " * Auto-generated from Figma",
   " */"] : Lines) ++
  (["export default \x7b"] : Lines) ++
  (["  title: 'Components/" ++ component.name ++ "',",
   "  component: " ++ component.name ++ ",",
   "  parameters: \x7b",
   "    docs: \x7b",
   "      description: \x7b",
   "        component: " ++ Text.scriptLiteral display ++ ",",
   "      \x7d,",
   "    \x7d,",
   "  \x7d,",
   "  argTypes: " ++ argTypesText (argTypes component) ++ ",",
   "\x7d;",
   ""] : Lines)

lemma exists_of_catalog (h : catalog component = .ok text) : ∃ display list,
    stories component = .ok list ∧ text = unlines (
      (["import React from 'react';",
        "import \x7b " ++ component.name ++ " \x7d from './" ++ component.name ++ "';"] : Lines) ++
      catalogHead component display ++
      (["const Template = (args) => <" ++ component.name ++ " \x7b...args\x7d />;"] : Lines) ++
      list.flatMap Story.lines ++ ([""] : Lines)) := by
  obtain ⟨display, -, h⟩ := bind_eq_ok.1 h
  obtain ⟨list, hlist, h⟩ := bind_eq_ok.1 h
  cases h
  exact ⟨display, list, hlist, rfl⟩

lemma topLevelNames_catalogHead (hname : OneLine component.name) (display : Text) :
    (catalogHead component display).flatMap topLevelNames = [] := by
  have hdefault : topLevelNames "export default \x7b" = [] := by decide +kernel
  have haround {a b c : Text} (ha : OneLine a) (hb : OneLine b) (hc : OneLine c) :
      OneLine (a ++ b ++ c) := oneLine_append.2 ⟨oneLine_append.2 ⟨ha, hb⟩, hc⟩
  have hargTypes : IsQuiet ("  argTypes: " ++ argTypesText (argTypes component) ++ ",") :=
    ((IsQuiet.of_oneLine (by decide) rfl).append quiet_argTypesText).append
      (.of_oneLine (by decide) rfl)
  unfold catalogHead
  rw [List.flatMap_append, List.flatMap_append, List.flatMap_singleton, hdefault,
    flatMap_topLevelNames_of_quiet, flatMap_topLevelNames_of_quiet]
  · rfl
  · simp only [List.forall_mem_cons]
    exact ⟨.of_oneLine (haround (by decide) hname (by decide)) rfl,
      .of_oneLine (haround (by decide) hname (by decide)) rfl, .of_oneLine (by decide) rfl,
      .of_oneLine (by decide) rfl, .of_oneLine (by decide) rfl,
      .of_oneLine (haround (by decide) (oneLine_scriptLiteral display) (by decide)) rfl,
      .of_oneLine (by decide) rfl, .of_oneLine (by decide) rfl, .of_oneLine (by decide) rfl,
      hargTypes, .of_oneLine (by decide) rfl, .empty, List.forall_mem_nil _⟩
  · simp only [List.forall_mem_cons]
    exact ⟨.empty, .of_oneLine (by decide) rfl,
      .of_oneLine (haround (by decide) hname (by decide)) rfl, .of_oneLine (by decide) rfl,
      .of_oneLine (by decide) rfl, List.forall_mem_nil _⟩

/-- What a catalog declares at its top level. -/
theorem topLevelNames_catalog (hword : Over isWordChar component.name)
    (hlarge : BeginsLarge component.name) (h : catalog component = .ok text) :
    topLevelNames text =
      (["React", component.name, "Template"] : List Text) ++ storyNames component := by
  obtain ⟨display, list, hlist, rfl⟩ := exists_of_catalog h
  obtain ⟨hnames, hplain⟩ := isPlain_of_stories hlist
  have hname : OneLine component.name := oneLine_of_over hword (by decide)
  have hreact : topLevelNames "import React from 'react';" = ["React"] := by decide +kernel
  have hcomponent : topLevelNames
      ("import \x7b " ++ component.name ++ " \x7d from './" ++ component.name ++ "';") =
        [component.name] := by
    have hmore : OneLine (" \x7d from './" ++ (component.name ++ "';")) :=
      oneLine_append.2 ⟨by decide, oneLine_append.2 ⟨hname, by decide⟩⟩
    rw [append_assoc, append_assoc]
    exact topLevelNames_declaration (by decide) hword (ne_empty_of_large hlarge) hmore rfl
  have htemplate : topLevelNames
      ("const Template = (args) => <" ++ component.name ++ " \x7b...args\x7d />;") = ["Template"] := by
    have hmore : OneLine (" = (args) => <" ++ (component.name ++ " \x7b...args\x7d />;")) :=
      oneLine_append.2 ⟨by decide, oneLine_append.2 ⟨hname, by decide⟩⟩
    have hline : ("const Template = (args) => <" ++ component.name ++ " \x7b...args\x7d />;" : Text) =
        "const " ++ "Template" ++ (" = (args) => <" ++ (component.name ++ " \x7b...args\x7d />;")) := by
      rw [append_assoc]
      rfl
    rw [hline]
    exact topLevelNames_declaration (by decide) (over_ofString rfl) (by decide) hmore rfl
  have hstories : (list.flatMap Story.lines).flatMap topLevelNames = storyNames component := by
    have hstory : ∀ story ∈ list, story.lines.flatMap topLevelNames = [story.name] :=
      fun story hs => topLevelNames_story (hplain story hs)
    rw [List.flatMap_assoc, List.flatMap_congr hstory, ← hnames, List.map_eq_flatMap]
  rw [topLevelNames_unlines]
  simp only [List.flatMap_append, List.flatMap_cons, List.flatMap_nil, hreact, hcomponent, htemplate,
    hstories, topLevelNames_catalogHead hname, topLevelNames_of_quiet .empty]
  simp

/-- No component is called like the library, what the stories are made from, or a story. -/
theorem nodup_topLevelNames (hname : IsFreshName (.initial .standard) component.name)
    (h : catalog component = .ok text) : (topLevelNames text).Nodup := by
  have hreserved : Rules.standard.reserved.Nodup := by decide +kernel
  have hsub : ((["React", "Template"] : List Text) ++ storyNames component).Sublist
      Rules.standard.reserved := by
    unfold storyNames
    split <;> decide +kernel
  rw [topLevelNames_catalog hname.word hname.large h]
  refine (List.Perm.swap component.name "React" _).nodup_iff.2 (List.nodup_cons.2 ⟨?_, ?_⟩)
  · exact fun hmem => hname.ne_reserved (hsub.subset hmem)
  · exact hreserved.sublist hsub

end Handoff.Render
