import Handoff.Proofs.Data.Table
import Handoff.Proofs.Token.Extraction
import Handoff.Proofs.Token.Sheets

/-!
What variables contribute to the tokens, and what becomes of it.

A variable contributes at most one token, to one group and under the slug of its name. Contributions to
a group under one name replace each other, and one name in several groups is declared several times. So
every variable has a declaration of its own exactly when no two contribute one name.
-/

namespace Handoff.Token

open Files Text

deriving instance DecidableEq for Tokens

/-! ### Contributions -/

/-- A token that a variable contributes. -/
structure Contribution where
  group : Group
  name : Text
  value : Text
deriving DecidableEq

namespace Contribution

/-- The token as an entry of its group. -/
def entry (c : Contribution) : Text × Text := (c.name, c.value)

/-- Where the token is entered. -/
def place (c : Contribution) : Group × Text := (c.group, c.name)

end Contribution

/-- The token that a variable contributes, if it does. -/
def Reading.contribution? : Reading → Option Contribution
  | .token group name value => some ⟨group, name, value⟩
  | _ => none

/-- What variables contribute, in order. -/
def contributions (readings : List Reading) : List Contribution :=
  readings.filterMap Reading.contribution?

/-- What is contributed to a group. -/
def entriesOf (group : Group) (cs : List Contribution) : List (Text × Text) :=
  (cs.filter fun c => c.group = group).map Contribution.entry

section

variable {tokens : Tokens} {group : Group} {name : Text} {readings : List Reading}
  {cs : List Contribution}

lemma group_put (tokens : Tokens) (group' group : Group) (name value : Text) :
    (tokens.put group' name value).group group =
      if group' = group then (tokens.group group).put name value else tokens.group group := by
  cases group' <;> cases group <;> rfl

/-- Each group is the table of what is contributed to it. -/
theorem group_ofReadings (readings : List Reading) (group : Group) :
    (Tokens.ofReadings readings).group group =
      Table.ofEntries (entriesOf group (contributions readings)) := by
  have hfold (tokens : Tokens) : (readings.foldl Tokens.add tokens).group group =
      (entriesOf group (contributions readings)).foldl (fun table e => table.put e.1 e.2)
        (tokens.group group) := by
    induction readings generalizing tokens with
    | nil => rfl
    | cons reading rest ih =>
      rw [List.foldl_cons, ih (tokens.add reading)]
      cases reading with
      | token group' name value =>
        have hcons : contributions (.token group' name value :: rest) =
            ⟨group', name, value⟩ :: contributions rest := rfl
        rw [hcons, entriesOf, entriesOf, Tokens.add, group_put]
        by_cases hgroup : group' = group
        · rw [if_pos hgroup, List.filter_cons_of_pos (by simpa using hgroup)]
          rfl
        · rw [if_neg hgroup, List.filter_cons_of_neg (by simpa using hgroup)]
      | unnamed | unresolved | colorless => rfl
  have hempty : Tokens.empty.group group = [] := by cases group <;> rfl
  rw [Tokens.ofReadings, hfold, hempty]
  rfl

lemma keyed_group_ofReadings (readings : List Reading) (group : Group) :
    Table.Keyed ((Tokens.ofReadings readings).group group) := by
  rw [group_ofReadings]
  exact Table.keyed_ofEntries _

lemma mem_names_entriesOf : name ∈ (entriesOf group cs).map Prod.fst ↔
    (group, name) ∈ cs.map Contribution.place := by
  simp only [entriesOf, List.map_map, List.mem_map, List.mem_filter, decide_eq_true_eq, Function.comp,
    Contribution.entry, Contribution.place, Prod.mk.injEq]
  constructor
  · rintro ⟨c, ⟨hc, hgroup⟩, hname⟩
    exact ⟨c, hc, hgroup, hname⟩
  · rintro ⟨c, hc, hgroup, hname⟩
    exact ⟨c, ⟨hc, hgroup⟩, hname⟩

/-! ### Counting -/

/-- The places of all tokens. -/
def Tokens.places (tokens : Tokens) : List (Group × Text) :=
  Group.all.flatMap fun group => (tokens.group group).map fun e => (group, e.1)

lemma length_places (tokens : Tokens) : tokens.places.length = tokens.count := by
  simp [Tokens.places, Tokens.count, Group.all, Tokens.group]
  omega

lemma names_places (tokens : Tokens) :
    tokens.places.map Prod.snd = tokens.entries.map Prod.fst := by
  simp [Tokens.places, Tokens.entries, List.map_flatMap, Function.comp_def]

lemma mem_places {place : Group × Text} :
    place ∈ tokens.places ↔ place.2 ∈ (tokens.group place.1).map Prod.fst := by
  obtain ⟨group, name⟩ := place
  simp [Tokens.places, Group.mem_all]

lemma nodup_all : Group.all.Nodup := by decide

/-- A token has one place, since no group has a name twice. -/
lemma nodup_places (h : ∀ group, Table.Keyed (tokens.group group)) : tokens.places.Nodup := by
  refine List.nodup_flatMap.2 ⟨fun group _ => ?_, nodup_all.imp fun {a b} hne => ?_⟩
  · have hkeys := (h group).map (f := fun name => (group, name)) fun _ _ he => (Prod.mk.inj he).2
    simpa [List.map_map, Function.comp_def] using hkeys
  · rintro ⟨group, name⟩ ha hb
    obtain ⟨e, -, hplace⟩ := List.mem_map.1 ha
    obtain ⟨e', -, hplace'⟩ := List.mem_map.1 hb
    exact hne ((Prod.mk.inj hplace).1.trans (Prod.mk.inj hplace').1.symm)

/-- The tokens stand at the places that were contributed to. -/
theorem places_perm (readings : List Reading) : (Tokens.ofReadings readings).places.Perm
    (distinct ((contributions readings).map Contribution.place)) := by
  refine (List.perm_ext_iff_of_nodup (nodup_places (keyed_group_ofReadings readings))
    (nodup_distinct _)).2 fun place => ?_
  rw [mem_places, mem_distinct, group_ofReadings, Table.keys_ofEntries, mem_distinct,
    mem_names_entriesOf]

lemma count_ofReadings (readings : List Reading) : (Tokens.ofReadings readings).count =
    (distinct ((contributions readings).map Contribution.place)).length := by
  rw [← length_places, (places_perm readings).length_eq]

/-! ### Declarations of their own -/

lemma mem_names_entries {readings : List Reading} {name : Text} :
    name ∈ (Tokens.ofReadings readings).entries.map Prod.fst ↔
      name ∈ (contributions readings).map Contribution.name := by
  rw [← names_places, ((places_perm readings).map Prod.snd).mem_iff, List.mem_map]
  simp only [mem_distinct]
  rw [← List.mem_map, List.map_map]
  rfl

/-- No contribution replaces another, and no name is declared twice, exactly when no two contribute one
name. -/
theorem all_declared_once_iff (readings : List Reading) :
    ((Tokens.ofReadings readings).count = (contributions readings).length ∧
      ((Tokens.ofReadings readings).entries.map Prod.fst).Nodup) ↔
        ((contributions readings).map Contribution.name).Nodup := by
  have hcount : (Tokens.ofReadings readings).count = (contributions readings).length ↔
      ((contributions readings).map Contribution.place).Nodup := by
    rw [count_ofReadings, ← length_distinct_eq_iff, List.length_map Contribution.place]
  have hnames : ((contributions readings).map Contribution.place).map Prod.snd =
      (contributions readings).map Contribution.name := List.map_map
  have hdeclared : (Tokens.ofReadings readings).entries.map Prod.fst =
      (Tokens.ofReadings readings).places.map Prod.snd := (names_places _).symm
  rw [hcount, hdeclared, ((places_perm readings).map Prod.snd).nodup_iff, ← hnames]
  constructor
  · rintro ⟨hplaces, hdistinct⟩
    exact ((distinct_perm hplaces).map Prod.snd).nodup_iff.1 hdistinct
  · intro h
    have hplaces := List.Nodup.of_map _ h
    exact ⟨hplaces, ((distinct_perm hplaces).map Prod.snd).nodup_iff.2 h⟩

/-! ### Variables of an answer -/

/-- The table of variables in an answer. -/
def tableOf (payload : Value) : Except Fault Fields := do (← variablesOf payload).fields

lemma tokensOf_eq_ok {payload : Value} (h : tokensOf payload = .ok tokens) :
    ∃ all readings, tableOf payload = .ok all ∧ readingsOf (indexOf all) all = .ok readings ∧
      tokens = Tokens.ofReadings readings := by
  obtain ⟨found, hfound, h⟩ := bind_eq_ok.1 h
  obtain ⟨all, hall, h⟩ := bind_eq_ok.1 h
  obtain ⟨readings, hreadings, h⟩ := bind_eq_ok.1 h
  cases h
  exact ⟨all, readings, bind_eq_ok.2 ⟨found, hfound, hall⟩, hreadings, rfl⟩

lemma tokensOf_of_gives {payload : Value} (h : (extractTokens payload).Gives (.ok tokens)) :
    tokensOf payload = .ok tokens := by
  obtain ⟨journal, hrun⟩ := gives_extractTokens payload []
  obtain ⟨journal', hrun'⟩ := h []
  exact (Prod.mk.inj (hrun.symm.trans hrun')).1

/-- Every variable is read once, in order. -/
lemma forall₂_of_readingsOf {index : Index} {all : Fields} (h : readingsOf index all = .ok readings) :
    List.Forall₂ (fun v reading => readVariable index v.1 v.2 = .ok reading) all readings := by
  induction all generalizing readings with
  | nil =>
    cases h
    exact .nil
  | cons first rest ih =>
    obtain ⟨reading, hreading, h⟩ := bind_eq_ok.1 h
    obtain ⟨others, hothers, h⟩ := bind_eq_ok.1 h
    cases h
    exact .cons hreading (ih hothers)

/-! ### Names of variables -/

lemma name_of_numberToken {lowered name' value' : Text} {value : Value}
    (h : numberToken lowered name value = .ok (.token group name' value')) : name' = name := by
  obtain ⟨text, -, h⟩ := bind_eq_ok.1 h
  split at h
  · cases h
    rfl
  · split at h <;> cases h <;> rfl

lemma name_of_valueToken {type value : Value} {lowered name' value' : Text}
    (h : valueToken type lowered name value = .ok (.token group name' value')) : name' = name := by
  unfold valueToken at h
  split at h
  · split at h
    · obtain ⟨color?, -, h⟩ := bind_eq_ok.1 h
      cases color? <;> cases h
      rfl
    · cases h
  · split at h
    · exact name_of_numberToken h
    · split at h
      · cases h
        rfl
      · split at h <;> cases h <;> rfl

/-- A token has the slug of its variable's name, which is not empty. -/
lemma name_of_readVariable {index : Index} {id : Text} {entry : Value} {value : Text}
    (h : readVariable index id entry = .ok (.token group name value)) :
    ∃ raw, name = tokenName raw ∧ name.isEmpty = false := by
  obtain ⟨field, -, h⟩ := bind_eq_ok.1 h
  obtain ⟨raw, -, h⟩ := bind_eq_ok.1 h
  dsimp only at h
  split at h
  · cases h
  · rename_i hname
    obtain ⟨resolved, -, h⟩ := bind_eq_ok.1 h
    split at h
    · cases h
    · obtain ⟨type, -, h⟩ := bind_eq_ok.1 h
      have hsame := name_of_valueToken h
      rw [hsame]
      exact ⟨raw, rfl, by simpa using hname⟩

lemma over_tokenName (raw : Text) : Over isTokenNameChar (tokenName raw) := by
  intro c hc
  have hfile := isFileChar_of_slug (isSlug_slug _ c hc)
  simp [isTokenNameChar, hfile]

/-- The names of the tokens of variables are slugs. -/
lemma exists_tokenName {index : Index} {all : Fields}
    (h : List.Forall₂ (fun v reading => readVariable index v.1 v.2 = .ok reading) all readings) :
    ∀ e ∈ (Tokens.ofReadings readings).entries, ∃ raw, e.1 = tokenName raw ∧ e.1.isEmpty = false := by
  intro e he
  obtain ⟨c, hc, hname⟩ := List.mem_map.1 (mem_names_entries.1 (List.mem_map_of_mem he))
  obtain ⟨reading, hreading, hsome⟩ := List.mem_filterMap.1 hc
  obtain ⟨v, -, hread⟩ := exists_of_mem_forall₂ h hreading
  rw [← hname]
  cases reading with
  | token group name value =>
    cases hsome
    exact name_of_readVariable hread
  | unnamed | unresolved | colorless => cases hsome

end

/-! ### The tokens file of an answer -/

section

variable {payload : Value} {tokens : Tokens}

/-- The names of the tokens of an answer are slugs, and not empty. -/
lemma tokenName_of_gives (h : (extractTokens payload).Gives (.ok tokens)) :
    ∀ e ∈ tokens.entries, ∃ raw, e.1 = tokenName raw ∧ e.1.isEmpty = false := by
  obtain ⟨all, readings, -, hreadings, rfl⟩ := tokensOf_eq_ok (tokensOf_of_gives h)
  exact exists_tokenName (forall₂_of_readingsOf hreadings)

lemma over_names_of_gives (h : (extractTokens payload).Gives (.ok tokens)) :
    ∀ e ∈ tokens.entries, Over isTokenNameChar e.1 := by
  intro e he
  obtain ⟨raw, hname, -⟩ := tokenName_of_gives h e he
  rw [hname]
  exact over_tokenName raw

/-- What becomes of the variables of an answer: under each name a group keeps the value that was
contributed last, so the variables all have declarations of their own, and each name has one as a
property and one as a variable, exactly when no two variables contribute one name. -/
theorem extractTokens_contributions (h : (extractTokens payload).Gives (.ok tokens)) :
    ∃ all readings, tableOf payload = .ok all ∧
      List.Forall₂ (fun v reading => readVariable (indexOf all) v.1 v.2 = .ok reading) all readings ∧
      (∀ group name, (tokens.group group).lookup name =
        Table.lastValue (entriesOf group (contributions readings)) name) ∧
      tokens.count = (distinct ((contributions readings).map Contribution.place)).length ∧
      ((tokens.count = (contributions readings).length ∧ (tokens.entries.map Prod.fst).Nodup) ↔
        ((contributions readings).map Contribution.name).Nodup) ∧
      tokens.AreWritten := by
  have hnames := over_names_of_gives h
  obtain ⟨all, readings, hall, hreadings, rfl⟩ := tokensOf_eq_ok (tokensOf_of_gives h)
  refine ⟨all, readings, hall, forall₂_of_readingsOf hreadings, fun group name => ?_,
    count_ofReadings readings, all_declared_once_iff readings, Tokens.areWritten hnames⟩
  rw [group_ofReadings, Table.lookup_ofEntries]

/-! ### Answers with variables -/

/-- An answer with these variables. -/
def payloadOf (all : Fields) : Value :=
  .record [("meta", .record [("variables", .record all)])]

/-- A variable with one value. -/
def variableOf (name type : Text) (value : Value) : Value :=
  .record [("name", .text name), ("resolvedType", .text type),
    ("valuesByMode", .record [("1:0", value)])]

/-- The red of a page. -/
def red : Value := .record [("r", .int 1), ("g", .int 0), ("b", .int 0)]

/-- The blue of a page. -/
def blue : Value := .record [("r", .int 0), ("g", .int 0), ("b", .int 1)]

lemma gives_of_tokensOf (h : tokensOf payload = .ok tokens) :
    (extractTokens payload).Gives (.ok tokens) := by
  rw [← h]
  exact gives_extractTokens payload

theorem extractTokens_contributions_apart :
    let payload := payloadOf [("1", variableOf "Brand A" "COLOR" red),
      ("2", variableOf "space" "FLOAT" (.int 8))]
    let tokens : Tokens := ⟨[("brand-a", "rgb(255, 0, 0)")], [], [("space", "8px")], []⟩
    (extractTokens payload).Gives (.ok tokens) ∧ ∃ all readings, tableOf payload = .ok all ∧
      List.Forall₂ (fun v reading => readVariable (indexOf all) v.1 v.2 = .ok reading) all readings ∧
      tokens.count = (distinct ((contributions readings).map Contribution.place)).length := by
  intro payload tokens
  have hgives : (extractTokens payload).Gives (.ok tokens) := gives_of_tokensOf (by decide +kernel)
  obtain ⟨all, readings, hall, hread, -, hcount, -⟩ := extractTokens_contributions hgives
  exact ⟨hgives, all, readings, hall, hread, hcount⟩

/-- Two colours with one slug, and one slug in two groups. -/
def brands : Fields := [
  ("1", variableOf "Brand A" "COLOR" red),
  ("2", variableOf "brand-a" "COLOR" blue),
  ("3", variableOf "space" "FLOAT" (.int 8)),
  ("4", variableOf "Space" "STRING" (.text "wide"))]

/-- The first of two colours with one slug is lost, and a slug in two groups is declared twice. -/
theorem extractTokens_brands : ∃ readings tokens found,
    tableOf (payloadOf brands) = .ok brands ∧ readingsOf (indexOf brands) brands = .ok readings ∧
    (extractTokens (payloadOf brands)).Gives (.ok tokens) ∧
    (contributions readings).map Contribution.name =
      (["brand-a", "brand-a", "space", "space"] : List Text) ∧
    tokens.count = 3 ∧ statements? (tokensSheet tokens) = some found ∧
    customProperties found = ([("brand-a", "rgb(0, 0, 255)"), ("space", "8px"),
      ("space", "\"wide\"")] : List (Text × Text)) ∧
    (sheetVariables found).map Prod.fst = (["brand-a", "space", "space"] : List Text) := by
  let tokens : Tokens := ⟨[("brand-a", "rgb(0, 0, 255)")], [], [("space", "8px")],
    [("space", "\"wide\"")]⟩
  have hreadings : readingsOf (indexOf brands) brands = .ok [
      .token .colors "brand-a" "rgb(255, 0, 0)", .token .colors "brand-a" "rgb(0, 0, 255)",
      .token .spacing "space" "8px", .token .other "space" "\"wide\""] := by decide +kernel
  have hdeclarable : tokens.AreDeclarable := by decide +kernel
  obtain ⟨found, hfound, -, hproperties, hvariables⟩ := declared_tokensSheet hdeclarable
  refine ⟨_, tokens, found, rfl, hreadings, gives_of_tokensOf (by decide +kernel), rfl, rfl, hfound,
    hproperties, ?_⟩
  rw [hvariables]
  rfl

end

end Handoff.Token
