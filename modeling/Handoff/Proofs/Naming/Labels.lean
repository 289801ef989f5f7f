import Handoff.Proofs.Component.Series

/-!
The names that a series of labels is given.

A label is given the name that it asks for unless an earlier label or a reserved name has it, without
regard to case; then it is given the first number from two on with which nothing has it. What is used after
each label are the reserved names and the names given so far, and this carries the induction over labels.
-/

namespace Handoff.Naming

open Text

/-! ### The search -/

/-- The search for a name that is not used: from a name on, then from a base with one number after
another. There is a result only when the search ends. -/
inductive Searches (used : Text → Prop) (base : Text) : Text → Int → Text → Prop
  | found {name : Text} {k : Int} (hfree : ¬ used name) : Searches used base name k name
  | next {name result : Text} {k : Int} (hused : used name)
      (hrest : Searches used base (base ++ toString k) (k + 1) result) : Searches used base name k result

section

variable {used : Text → Prop} {base name result : Text} {k : Int}

/-- A search ends with the name it begins with when that is not used, and otherwise with the least number
that gives a name that is not used. -/
theorem Searches.least (h : Searches used base name k result) :
    (¬ used name ∧ result = name) ∨
      (used name ∧ ∃ j, k ≤ j ∧ result = base ++ toString j ∧ ¬ used result ∧
        ∀ i, k ≤ i → i < j → used (base ++ toString i)) := by
  induction h with
  | found hfree => exact .inl ⟨hfree, rfl⟩
  | @next name result k hused _ ih =>
    refine .inr ⟨hused, ?_⟩
    rcases ih with ⟨hfree, rfl⟩ | ⟨htaken, j, hj, hresult, hfree, hall⟩
    · exact ⟨k, Int.le_refl k, rfl, hfree, fun i hi hlt => by omega⟩
    · refine ⟨j, by omega, hresult, hfree, fun i hi hlt => ?_⟩
      rcases Int.lt_or_eq_of_le hi with hlater | rfl
      · exact hall i (by omega) hlt
      · exact htaken

/-- The bounded search is a search when its result is not taken. -/
lemma searches_firstFree {taken : Text → Bool} {bound : Nat}
    (h : taken (firstFree taken (fun k => base ++ toString k) k bound) = false) :
    Searches (fun name => taken name = true) base (base ++ toString k) (k + 1)
      (firstFree taken (fun k => base ++ toString k) k bound) := by
  induction bound generalizing k with
  | zero => exact .found (Bool.eq_false_iff.1 h)
  | succ bound ih =>
    rw [firstFree] at h ⊢
    split
    · rename_i htaken
      rw [if_pos htaken] at h
      exact .next htaken (ih h)
    · rename_i hfree
      exact .found hfree

end

/-! ### One label -/

/-- A label: a text, or null. -/
def labelValue : Option Text → Value
  | none => .null
  | some label => .text label

/-- The name that a label asks for. -/
def wanted (label : Text) : Text :=
  if pascal label = "" then "Unnamed"
  else if (pascal label).toList.head?.any isNumeralChar then "Component" ++ pascal label
  else pascal label

example : wanted "404 page" = "Component404Page" := by decide +kernel

/-- The name is reserved or was given before, without regard to case. -/
def UsedAfter (earlier : List Text) (name : Text) : Prop :=
  lower name ∈ (Rules.standard.reserved ++ earlier).map lower

/-- The name that is given to a label after earlier names. -/
structure IsNamed (earlier : List Text) (label name : Text) : Prop where
  ends : Searches (UsedAfter earlier) (wanted label) (wanted label) 2 name
  kept : ¬ UsedAfter earlier (wanted label) → name = wanted label
  numbered : UsedAfter earlier (wanted label) → ∃ k : Int, 2 ≤ k ∧ name = wanted label ++ toString k ∧
    ¬ UsedAfter earlier name ∧ ∀ j, 2 ≤ j → j < k → UsedAfter earlier (wanted label ++ toString j)

/-- Whatever search ends, the name it ends with is the one that a label is given. -/
lemma isNamed_of_searches {earlier : List Text} {label name : Text}
    (h : Searches (UsedAfter earlier) (wanted label) (wanted label) 2 name) : IsNamed earlier label name where
  ends := h
  kept hfree := (h.least.resolve_right fun hused => hfree hused.1).2
  numbered hused := (h.least.resolve_left fun hfree => hfree.1 hused).2

lemma IsNamed.free {earlier : List Text} {label name : Text} (h : IsNamed earlier label name) :
    ¬ UsedAfter earlier name := by
  rcases h.ends.least with ⟨hfree, rfl⟩ | ⟨-, k, -, -, hfree, -⟩
  · exact hfree
  · exact hfree

variable {names names' : ComponentNames} {earlier given : List Text} {name : Text}
  {labels : List (Option Text)}

/-- Null counts as the empty label. -/
lemma orElse_labelValue (label : Option Text) :
    (labelValue label).orElse .emptyText = .text (label.getD "") := by
  cases label with
  | none => rfl
  | some text =>
    unfold Value.orElse
    split
    · rfl
    · rename_i hempty
      have htext : text = "" := ext_toList (by simpa [labelValue, Value.truthy, Text.isEmpty] using hempty)
      rw [htext]
      rfl

lemma pascalOf_labelValue (label : Option Text) :
    pascalOf (labelValue label) = .ok (pascal (label.getD "")) := by
  rw [pascalOf, orElse_labelValue]
  rfl

lemma isDigit_of_word {c : CodePoint} (h : isWordChar c = true) : isDigit c = isNumeralChar c :=
  word_induction (P := fun c => isDigit c = isNumeralChar c) (by decide +kernel) h

namespace ComponentNames

/-- Every label asks for a name. -/
lemma base_labelValue (label : Option Text) :
    base .standard (labelValue label) = .ok (wanted (label.getD "")) := by
  rw [base, pascalOf_labelValue, ok_bind]
  simp only
  generalize hp : pascal (label.getD "") = p
  have hword : Over isWordChar p := hp ▸ over_pascal _
  unfold wanted
  rw [hp]
  by_cases hempty : p = ""
  · rw [hempty]
    rfl
  · have hsome : p.isEmpty = false := by
      rw [Bool.eq_false_iff]
      exact fun h => hempty (ext_toList (List.isEmpty_iff.1 h))
    rw [hsome, if_neg hempty]
    simp only [Bool.false_eq_true, if_false]
    cases hlist : p.toList with
    | nil => exact absurd (ext_toList hlist) hempty
    | cons c rest =>
      simp only [List.head?_cons, Option.any_some]
      rw [isDigit_of_word (hword c (by rw [hlist]; exact List.mem_cons_self))]
      rfl

/-- What is taken are the reserved names and these. -/
def Holds (names : ComponentNames) (earlier : List Text) : Prop :=
  ∀ name, names.taken name = true ↔ UsedAfter earlier name

lemma holds_initial : (initial .standard).Holds [] := by
  intro name
  rw [taken, initial, Std.TreeSet.contains_ofList, UsedAfter, List.append_nil, List.contains_iff_mem]

lemma Holds.insert (h : names.Holds earlier) (hused : names'.used = names.used.insert (lower name)) :
    names'.Holds (earlier ++ [name]) := by
  intro other
  have hother : ¬ names'.taken other = false ↔ ¬ (lower other ≠ lower name ∧ names.taken other = false) :=
    not_congr (taken_insert hused)
  rw [Bool.not_eq_false, not_and_or, Bool.not_eq_false, Decidable.not_not, h other] at hother
  have hsplit : (Rules.standard.reserved ++ (earlier ++ [name])).map lower =
      (Rules.standard.reserved ++ earlier).map lower ++ [lower name] := by
    rw [← List.append_assoc, List.map_append]
    rfl
  rw [hother, UsedAfter, UsedAfter, hsplit, List.mem_append, List.mem_singleton, or_comm]

lemma searches_choose {base : Text} (hfree : names.taken (names.choose .standard base) = false) :
    Searches (fun name => names.taken name = true) base base 2 (names.choose .standard base) := by
  unfold choose at hfree ⊢
  split
  · rename_i htaken
    rw [if_pos htaken] at hfree
    exact .next htaken (searches_firstFree hfree)
  · rename_i hbase
    exact .found hbase

/-- A label is given a name, which is taken from then on. -/
theorem exists_resolve (h : names.Holds earlier) (label : Option Text) :
    ∃ name names', names.resolve .standard (labelValue label) = .ok (name, names') ∧
      IsNamed earlier (label.getD "") name ∧ names'.Holds (earlier ++ [name]) := by
  have hresolve : names.resolve .standard (labelValue label) =
      .ok (names.choose .standard (wanted (label.getD "")),
        ⟨names.used.insert (lower (names.choose .standard (wanted (label.getD ""))))⟩) := by
    rw [resolve, base_labelValue, ok_bind]
    rfl
  obtain ⟨-, -, hfree, hused⟩ := resolve_eq_ok hresolve
  have hsame : (fun name => names.taken name = true) = UsedAfter earlier :=
    funext fun name => propext (h name)
  exact ⟨_, _, hresolve, isNamed_of_searches (hsame ▸ searches_choose hfree), h.insert hused⟩

end ComponentNames

/-- A name that is given begins with a capital letter, and letters and digits follow. -/
lemma IsNamed.word {label : Text} (h : IsNamed earlier label name) :
    Over isWordChar name ∧ BeginsLarge name := by
  have hbase := ComponentNames.base_labelValue (some label)
  obtain ⟨hword, -⟩ := ComponentNames.base_word hbase
  have hlarge := ComponentNames.base_beginsLarge hbase
  rcases h.ends.least with ⟨-, rfl⟩ | ⟨-, k, hk, rfl, -, -⟩
  · exact ⟨hword, hlarge⟩
  · rw [toString_of_nonneg (by omega)]
    exact ⟨over_append.2 ⟨hword, (over_numeral _).mono fun c => isWordChar_of_numeral⟩, hlarge.append _⟩

/-! ### A series of labels -/

/-- The names of labels in order, with the names given so far. -/
def nameLabels (names : ComponentNames) : List Value → Except Fault (List Text)
  | [] => .ok []
  | label :: rest => do
    let (name, names) ← names.resolve .standard label
    return name :: (← nameLabels names rest)

/-- Each label is given its name after the names before it. -/
inductive NamedInTurn : List Text → List (Option Text) → List Text → Prop
  | nil {earlier : List Text} : NamedInTurn earlier [] []
  | cons {earlier given : List Text} {name : Text} {label : Option Text} {labels : List (Option Text)}
      (hname : IsNamed earlier (label.getD "") name) (hrest : NamedInTurn (earlier ++ [name]) labels given) :
      NamedInTurn earlier (label :: labels) (name :: given)

theorem exists_nameLabels (h : names.Holds earlier) (labels : List (Option Text)) :
    ∃ given, nameLabels names (labels.map labelValue) = .ok given ∧ NamedInTurn earlier labels given := by
  induction labels generalizing names earlier with
  | nil => exact ⟨[], rfl, .nil⟩
  | cons label rest ih =>
    obtain ⟨name, names', hresolve, hname, hholds⟩ := ComponentNames.exists_resolve h label
    obtain ⟨given, hgiven, hrest⟩ := ih hholds
    refine ⟨name :: given, ?_, .cons hname hrest⟩
    rw [List.map_cons, nameLabels, hresolve, ok_bind]
    simp only [hgiven, ok_bind]
    rfl

lemma usedAfter_append {more : List Text} {other : Text} (h : UsedAfter earlier other) :
    UsedAfter (earlier ++ more) other := by
  rw [UsedAfter, ← List.append_assoc, List.map_append]
  exact List.mem_append_left _ h

namespace NamedInTurn

lemma length_eq (h : NamedInTurn earlier labels given) : given.length = labels.length := by
  induction h with
  | nil => rfl
  | cons _ _ ih => rw [List.length_cons, List.length_cons, ih]

/-- The names given were not used before. -/
lemma free (h : NamedInTurn earlier labels given) : ∀ name ∈ given, ¬ UsedAfter earlier name := by
  induction h with
  | nil => exact List.forall_mem_nil _
  | cons hname _ ih =>
    exact List.forall_mem_cons.2 ⟨hname.free, fun other ho hused => ih other ho (usedAfter_append hused)⟩

/-- No two names are the same without regard to case. -/
lemma pairwise (h : NamedInTurn earlier labels given) : given.Pairwise fun a b => lower a ≠ lower b := by
  induction h with
  | nil => exact .nil
  | @cons earlier given name label labels hname hrest ih =>
    refine List.pairwise_cons.2 ⟨fun other ho hsame => hrest.free other ho ?_, ih⟩
    rw [UsedAfter, ← hsame]
    exact List.mem_map_of_mem (by simp)

lemma word (h : NamedInTurn earlier labels given) :
    ∀ name ∈ given, Over isWordChar name ∧ BeginsLarge name := by
  induction h with
  | nil => exact List.forall_mem_nil _
  | cons hname _ ih => exact List.forall_mem_cons.2 ⟨hname.word, ih⟩

end NamedInTurn

/-- All labels of a series, whatever they are, are named in turn. The names begin with a capital letter and
consist of letters and digits, and without regard to case they differ from each other and from the reserved
names. -/
theorem names_of_labels (labels : List (Option Text)) :
    ∃ given, nameLabels (.initial .standard) (labels.map labelValue) = .ok given ∧
      given.length = labels.length ∧ NamedInTurn [] labels given ∧
      (∀ name ∈ given, BeginsLarge name ∧ Over isWordChar name) ∧
      given.Pairwise (fun a b => lower a ≠ lower b) ∧
      ∀ name ∈ given, ∀ reserved ∈ Rules.standard.reserved, lower name ≠ lower reserved := by
  obtain ⟨given, hgiven, hturn⟩ := exists_nameLabels ComponentNames.holds_initial labels
  refine ⟨given, hgiven, hturn.length_eq, hturn, fun name hname => (hturn.word name hname).symm,
    hturn.pairwise, fun name hname reserved hreserved hsame => hturn.free name hname ?_⟩
  rw [UsedAfter, hsame, List.append_nil]
  exact List.mem_map_of_mem hreserved

/-- A number may meet a label that ends with it. -/
example : nameLabels (.initial .standard)
    (([some "Header2", some "header", some "HEADER", some "default", none] : List (Option Text)).map
      labelValue) =
      .ok ["Header2", "Header", "Header3", "Default2", "Unnamed"] := rfl

/-- The components of a design are named by the labels of their top layers. -/
theorem nameAll_eq_nameLabels (names : ComponentNames) (trees : List Design.LayerTree) :
    nameAll names trees = nameLabels names (trees.map fun tree => tree.label.name) := by
  induction trees generalizing names with
  | nil => rfl
  | cons tree rest ih =>
    rw [nameAll, List.map_cons, nameLabels]
    simp only [ih]

end Handoff.Naming
