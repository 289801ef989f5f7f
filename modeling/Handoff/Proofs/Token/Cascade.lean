import Handoff.Proofs.Token.Contributions

/-!
Which value of a custom property is in force.

The partial loads the tokens file and then declares its own properties, so a shared property hides
every token of its name. Tokens of one name hide each other by their groups.
-/

namespace Handoff.Token

open Text

/-! ### Loading a sheet -/

/-- The custom properties of the page once a sheet is loaded: those of the sheets that it uses, and
then its own. The used sheets use no others. -/
def loaded (sheetAt : Text → Option Text) (sheet : Text) : Option (List (Text × Text)) := do
  let own ← statements? sheet
  let used ← (usedSheets own).mapM fun path => do
    let found ← statements? (← sheetAt path)
    if usedSheets found = [] then some (customProperties found) else none
  return used.flatten ++ customProperties own

/-- The value of a custom property: the one declared last. -/
def inForce (properties : List (Text × Text)) (name : Text) : Option Text :=
  Table.lastValue properties name

section

variable {tokens : Tokens} {sheetAt : Text → Option Text} {path name : Text}

/-- The partial brings the tokens and then the shared properties. -/
theorem loaded_variablesSheet (h : tokens.AreDeclarable) (hpath : IsQuotable path)
    (hsheet : sheetAt path = some (tokensSheet tokens)) :
    loaded sheetAt (variablesSheet path) = some (tokens.entries ++ sharedEntries) := by
  obtain ⟨own, hown, hused, hproperties⟩ := declared_variablesSheet hpath
  obtain ⟨found, hfound, hnone, htokens, -⟩ := declared_tokensSheet h
  simp [loaded, hown, hused, hproperties, hsheet, hfound, hnone, htokens]

/-! ### Values in force -/

lemma keyed_sharedEntries : Table.Keyed sharedEntries := by
  have hnodup : (sharedEntries.map Prod.fst).Nodup := by decide +kernel
  exact hnodup

/-- The token of the last group that has the name. -/
def Tokens.latest (tokens : Tokens) (name : Text) : Option Text :=
  (((tokens.other.lookup name).or (tokens.spacing.lookup name)).or (tokens.typography.lookup name)).or
    (tokens.colors.lookup name)

lemma lastValue_entries (h : ∀ group, Table.Keyed (tokens.group group)) :
    Table.lastValue tokens.entries name = tokens.latest name := by
  have hentries : tokens.entries = tokens.group .colors ++
      (tokens.group .typography ++ (tokens.group .spacing ++ tokens.group .other)) := by
    simp [Tokens.entries, Group.all]
  rw [hentries, Table.lastValue_append, Table.lastValue_append, Table.lastValue_append,
    Table.lastValue_of_keyed (h .colors), Table.lastValue_of_keyed (h .typography),
    Table.lastValue_of_keyed (h .spacing), Table.lastValue_of_keyed (h .other)]
  rfl

/-- A shared property comes last; any other has the value of the latest token. -/
lemma inForce_entries (h : ∀ group, Table.Keyed (tokens.group group)) :
    inForce (tokens.entries ++ sharedEntries) name = (sharedEntries.lookup name).or (tokens.latest name) := by
  rw [inForce, Table.lastValue_append, Table.lastValue_of_keyed keyed_sharedEntries, lastValue_entries h]

/-- A token of variables is in force exactly when no shared property of its name has another value,
and none has its name unless it is the latest token with it. -/
theorem inForce_token_iff {payload : Value} (h : (extractTokens payload).Gives (.ok tokens))
    (hvalues : ∀ e ∈ tokens.entries, IsTokenValue e.2) (hpath : IsQuotable path)
    (hsheet : sheetAt path = some (tokensSheet tokens)) :
    ∃ properties, loaded sheetAt (variablesSheet path) = some properties ∧ ∀ e ∈ tokens.entries,
      (inForce properties e.1 = some e.2 ↔ sharedEntries.lookup e.1 = some e.2 ∨
        sharedEntries.lookup e.1 = none ∧ tokens.latest e.1 = some e.2) := by
  have hdeclarable : tokens.AreDeclarable := fun e he => ⟨over_names_of_gives h e he, hvalues e he⟩
  obtain ⟨all, readings, -, -, rfl⟩ := tokensOf_eq_ok (tokensOf_of_gives h)
  refine ⟨_, loaded_variablesSheet hdeclarable hpath hsheet, fun e _ => ?_⟩
  rw [inForce_entries (keyed_group_ofReadings readings), Option.or_eq_some_iff]

theorem inForce_token_iff_gap :
    let payload := payloadOf [("1", variableOf "gap" "FLOAT" (.int 8))]
    let tokens : Tokens := ⟨[], [], [("gap", "8px")], []⟩
    let sheetAt := fun _ : Text => some (tokensSheet tokens)
    (extractTokens payload).Gives (.ok tokens) ∧ ∃ properties,
      loaded sheetAt (variablesSheet "../styles/tokens") = some properties ∧
      inForce properties "gap" = some "8px" := by
  intro payload tokens sheetAt
  have hgives : (extractTokens payload).Gives (.ok tokens) := gives_of_tokensOf (by decide +kernel)
  have hpath : IsQuotable "../styles/tokens" := by decide +kernel
  obtain ⟨properties, hloaded, hiff⟩ := inForce_token_iff hgives (by decide +kernel) hpath
    (rfl : sheetAt _ = _)
  exact ⟨hgives, properties, hloaded, (hiff ("gap", "8px") (by decide)).2 (.inr ⟨by decide +kernel, rfl⟩)⟩

/-- The blue of a design is not its primary colour. -/
theorem inForce_primary :
    let payload := payloadOf [("v1", variableOf "color/primary" "COLOR" blue)]
    let tokens : Tokens := ⟨[("color-primary", "rgb(0, 0, 255)")], [], [], []⟩
    let sheetAt := fun _ : Text => some (tokensSheet tokens)
    (extractTokens payload).Gives (.ok tokens) ∧ ∃ properties,
      loaded sheetAt (variablesSheet "../styles/tokens") = some properties ∧
      inForce properties "color-primary" = some "#007bff" := by
  intro payload tokens sheetAt
  have hloaded : loaded sheetAt (variablesSheet "../styles/tokens") =
      some (tokens.entries ++ sharedEntries) :=
    loaded_variablesSheet (by decide +kernel) (by decide +kernel) rfl
  exact ⟨gives_of_tokensOf (by decide +kernel), _, hloaded, by decide +kernel⟩

end

end Handoff.Token
