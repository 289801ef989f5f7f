import Mathlib.Data.List.Perm.Subperm
import Handoff.Proofs.Token.Contributions

/-!
Values along chains of aliases.

A variable whose value is an alias stands for the variable that the alias names, and so on along a chain.
The search for the value marks the variables that it has come to. They are the ones on the chain so far,
and all of them are in the table, so there can be no more steps than variables: the search ends, and how
the chain ends decides what it finds.
-/

namespace Handoff.Token

open Design

/-! ### Tables of variables -/

/-- The values of a variable by mode, in order; a field that counts as absent holds none. -/
inductive ModesOf : Value → Fields → Prop where
  | given {fields modes : Fields} (h : fieldOf fields "valuesByMode" = .record modes) :
      ModesOf (.record fields) modes
  | absent {fields : Fields} (h : (fieldOf fields "valuesByMode").truthy = false) :
      ModesOf (.record fields) []

/-- A table of variables, where an alias in a first mode names a text. -/
structure IsVariableTable (all : Fields) : Prop where
  modes : ∀ v ∈ all, ∃ modes, ModesOf v.2 modes
  aliases : ∀ v ∈ all, ∀ mode value others, ModesOf v.2 ((mode, value) :: others) →
    ∀ id, aliasTarget? value = some id → ∃ name, id = .text name

/-- The variable has the value in its first mode. -/
def HasValue (all : Fields) (id : Text) (value : Value) : Prop :=
  ∃ entry mode others, all.lookup id = some entry ∧ ModesOf entry ((mode, value) :: others)

/-- The variable is there, with no mode to have a value in. -/
def HasNoMode (all : Fields) (id : Text) : Prop :=
  ∃ entry, all.lookup id = some entry ∧ ModesOf entry []

/-- The value of a variable is an alias of the other one, which may be missing. -/
def Names (all : Fields) (id next : Text) : Prop :=
  ∃ value, HasValue all id value ∧ aliasTarget? value = some (.text next)

/-- A chain of so many links leads from one variable to the other. -/
def Leads (all : Fields) (id : Text) : Nat → Text → Prop
  | 0, last => id = last
  | n + 1, last => ∃ before, Leads all id n before ∧ Names all before last

/-- A chain of links leads from the variable to a value that is no alias. -/
def LeadsToValue (all : Fields) (id : Text) (value : Value) : Prop :=
  ∃ n last, Leads all id n last ∧ HasValue all last value ∧ aliasTarget? value = none

/-- The chain from the variable has no value at its end. -/
inductive BreaksOff (all : Fields) (id : Text) : Prop where
  | missing {n : Nat} {last : Text} (h : Leads all id n last) (hlast : all.lookup last = none)
  | noMode {n : Nat} {last : Text} (h : Leads all id n last) (hlast : HasNoMode all last)
  | null {n : Nat} {last : Text} (h : Leads all id n last) (hlast : HasValue all last .null)
  /-- The chain comes back to a variable already on it. -/
  | again {k n : Nat} {last : Text} (hk : k < n) (hfirst : Leads all id k last) (h : Leads all id n last)

variable {all modes modes' : Fields} {id last next : Text} {entry value value' : Value} {k m n : Nat}

lemma ModesOf.unique (h : ModesOf entry modes) (h' : ModesOf entry modes') : modes = modes' := by
  have hempty {fields modes : Fields} (hrecord : fieldOf fields "valuesByMode" = .record modes)
      (hfalse : (fieldOf fields "valuesByMode").truthy = false) : modes = [] := by
    rw [hrecord] at hfalse
    simpa [Value.truthy] using hfalse
  cases h with
  | given h =>
    cases h' with
    | given h' => exact Value.record.inj (h.symm.trans h')
    | absent h' => exact hempty h h'
  | absent h =>
    cases h' with
    | given h' => exact (hempty h' h).symm
    | absent => rfl

lemma HasValue.unique (h : HasValue all id value) (h' : HasValue all id value') : value = value' := by
  obtain ⟨entry, mode, others, hl, hmodes⟩ := h
  obtain ⟨entry', mode', others', hl', hmodes'⟩ := h'
  cases hl.symm.trans hl'
  have hsame := hmodes.unique hmodes'
  simp only [List.cons.injEq, Prod.mk.injEq] at hsame
  exact hsame.1.2

lemma HasNoMode.not_hasValue (h : HasNoMode all id) : ¬ HasValue all id value := by
  rintro ⟨entry, mode, others, hl, hmodes⟩
  obtain ⟨entry', hl', hmodes'⟩ := h
  cases hl.symm.trans hl'
  cases hmodes.unique hmodes'

/-! ### Chains -/

lemma Names.unique {next' : Text} (h : Names all id next) (h' : Names all id next') : next = next' := by
  obtain ⟨value, hvalue, halias⟩ := h
  obtain ⟨value', hvalue', halias'⟩ := h'
  rw [hvalue.unique hvalue', halias'] at halias
  exact (Value.text.inj (Option.some.inj halias)).symm

namespace Leads

variable {a b : Text}

/-- A chain has one variable in each place. -/
lemma unique (ha : Leads all id n a) (hb : Leads all id n b) : a = b := by
  induction n generalizing a b with
  | zero => exact ha.symm.trans hb
  | succ n ih =>
    obtain ⟨before, hbefore, hnames⟩ := ha
    obtain ⟨before', hbefore', hnames'⟩ := hb
    rw [ih hbefore hbefore'] at hnames
    exact hnames.unique hnames'

lemma of_le (h : Leads all id n a) (hmn : m ≤ n) : ∃ b, Leads all id m b := by
  induction n generalizing a with
  | zero => exact ⟨a, Nat.le_zero.1 hmn ▸ h⟩
  | succ n ih =>
    rcases Nat.le_succ_iff.1 hmn with hle | rfl
    · obtain ⟨before, hbefore, -⟩ := h
      exact ih hbefore hle
    · exact ⟨a, h⟩

/-- Behind a variable that stands in two places, the chain goes on in the same way. -/
lemma shift (hk : Leads all id k a) (hm : Leads all id m a) (i : Nat) (h : Leads all id (k + i) b) :
    Leads all id (m + i) b := by
  induction i generalizing b with
  | zero => exact hk.unique h ▸ hm
  | succ i ih =>
    obtain ⟨before, hbefore, hnames⟩ := h
    exact ⟨before, ih hbefore, hnames⟩

/-- A chain that comes back to one of its variables never ends. -/
lemma endless (hkm : k < m) (hk : Leads all id k a) (hm : Leads all id m a) (n : Nat) :
    ∃ b, Leads all id n b := by
  induction n using Nat.strongRecOn with
  | _ n ih =>
    rcases Nat.le_total n m with hle | hle
    · exact hm.of_le hle
    · -- The chain goes on from place m as it does from place k, so one turn less is enough.
      obtain ⟨b, hb⟩ := ih (n - (m - k)) (by omega)
      rw [show n - (m - k) = k + (n - m) by omega] at hb
      have hshift := hk.shift hm (n - m) hb
      rw [Nat.add_sub_cancel' hle] at hshift
      exact ⟨b, hshift⟩

/-- No place of a chain lies behind a variable that names no other one. -/
lemma le_of_stops (h : Leads all id n a) (hstop : ∀ next, ¬ Names all a next)
    (hm : Leads all id m b) : m ≤ n := by
  by_contra hlt
  obtain ⟨c, before, hbefore, hnames⟩ := hm.of_le (Nat.not_le.1 hlt)
  rw [← h.unique hbefore] at hnames
  exact hstop c hnames

/-- A chain stops at one variable only. -/
lemma eq_of_stops (ha : Leads all id n a) (hstop : ∀ next, ¬ Names all a next)
    (hb : Leads all id m b) (hstop' : ∀ next, ¬ Names all b next) : a = b := by
  have hsame := Nat.le_antisymm (ha.le_of_stops hstop hb) (hb.le_of_stops hstop' ha)
  subst hsame
  exact ha.unique hb

end Leads

lemma not_names_of_hasValue (h : HasValue all id value) (hplain : aliasTarget? value = none) :
    ∀ next, ¬ Names all id next := by
  rintro next ⟨value', hvalue', halias⟩
  rw [hvalue'.unique h, hplain] at halias
  cases halias

/-- A chain has one value at its end. -/
lemma LeadsToValue.unique (h : LeadsToValue all id value) (h' : LeadsToValue all id value') :
    value = value' := by
  obtain ⟨n, last, hleads, hvalue, hplain⟩ := h
  obtain ⟨n', last', hleads', hvalue', hplain'⟩ := h'
  have hsame := hleads.eq_of_stops (not_names_of_hasValue hvalue hplain) hleads'
    (not_names_of_hasValue hvalue' hplain')
  rw [← hsame] at hvalue'
  exact hvalue.unique hvalue'

/-- A chain that leads to a value does not break off, unless the value is null. -/
lemma BreaksOff.eq_null (h : BreaksOff all id) (hvalue : LeadsToValue all id value) :
    value = .null := by
  obtain ⟨n, last, hleads, hlast, hplain⟩ := hvalue
  have hstop := not_names_of_hasValue hlast hplain
  cases h with
  | @missing _ final hmissing hnone =>
    have hstop' : ∀ next, ¬ Names all final next := by
      rintro next ⟨value, ⟨entry, mode, others, hsome, -⟩, -⟩
      cases hnone.symm.trans hsome
    obtain ⟨entry, mode, others, hsome, -⟩ := hlast
    rw [hleads.eq_of_stops hstop hmissing hstop', hnone] at hsome
    cases hsome
  | @noMode _ final hnone hempty =>
    have hstop' : ∀ next, ¬ Names all final next := fun next ⟨value, hvalue, _⟩ =>
      hempty.not_hasValue hvalue
    rw [hleads.eq_of_stops hstop hnone hstop'] at hlast
    exact (hempty.not_hasValue hlast).elim
  | null hnull hvalue =>
    rw [hleads.eq_of_stops hstop hnull (not_names_of_hasValue hvalue rfl)] at hlast
    exact hlast.unique hvalue
  | again hk hfirst hagain =>
    obtain ⟨next, hnext⟩ := Leads.endless hk hfirst hagain (n + 1)
    exact absurd (hleads.le_of_stops hstop hnext) (by omega)

/-! ### The search -/

/-- What the search goes on with at a variable: the first of its values, null without any. -/
lemma firstModeValue_of_modes (h : ModesOf entry modes) :
    firstModeValue entry = .ok ((modes.head?.map Prod.snd).getD .null) := by
  have hfield (fields : Fields) :
      (Value.record fields).field "valuesByMode" = .ok (fieldOf fields "valuesByMode") := rfl
  cases h with
  | given h =>
    rw [firstModeValue, hfield, ok_bind, h]
    cases modes <;> rfl
  | absent h =>
    rw [firstModeValue, hfield, ok_bind, h]
    rfl

/-- The search has come to this variable by so many links and goes on with its value: it has marked the
variables up to there, which are all in the table. -/
structure StandsAt (all : Fields) (id : Text) (n : Nat) (last : Text) (value : Value)
    (seen : Std.TreeSet Text) : Prop where
  leads : Leads all id n last
  value : HasValue all last value ∨ HasNoMode all last ∧ value = .null
  marked : ∀ name, seen.contains name = true ↔ ∃ k ≤ n, Leads all id k name
  known : ∀ name, seen.contains name = true → (all.lookup name).isSome

/-- What the search may end with: the value that the chain leads to, or null when it breaks off. -/
def Finds (all : Fields) (id : Text) (value : Value) : Prop :=
  value ≠ .null ∧ LeadsToValue all id value ∨ value = .null ∧ BreaksOff all id

lemma Finds.unique (h : Finds all id value) (h' : Finds all id value') : value = value' := by
  rcases h with ⟨hne, hleads⟩ | ⟨rfl, hbreaks⟩
  · rcases h' with ⟨-, hleads'⟩ | ⟨-, hbreaks'⟩
    · exact hleads.unique hleads'
    · exact absurd (hbreaks'.eq_null hleads) hne
  · rcases h' with ⟨hne', hleads'⟩ | ⟨rfl, -⟩
    · exact absurd (hbreaks.eq_null hleads') hne'
    · rfl

variable {seen : Std.TreeSet Text}

lemma exists_value_of_lookup (htable : IsVariableTable all) (hl : all.lookup id = some entry) :
    ∃ value, firstModeValue entry = .ok value ∧
      (HasValue all id value ∨ HasNoMode all id ∧ value = .null) := by
  obtain ⟨before, after, hsplit, -⟩ := List.lookup_eq_some_iff.1 hl
  obtain ⟨modes, hmodes⟩ := htable.modes (id, entry) (by simp [hsplit])
  refine ⟨_, firstModeValue_of_modes hmodes, ?_⟩
  cases modes with
  | nil => exact .inr ⟨⟨entry, hl, hmodes⟩, rfl⟩
  | cons first others => exact .inl ⟨entry, first.1, others, hl, hmodes⟩

/-- An alias of the table names a text. -/
lemma HasValue.exists_name (htable : IsVariableTable all) (h : HasValue all id value) {named : Value}
    (halias : aliasTarget? value = some named) : ∃ next, named = .text next ∧ Names all id next := by
  obtain ⟨entry, mode, others, hl, hmodes⟩ := h
  obtain ⟨before, after, hsplit, -⟩ := List.lookup_eq_some_iff.1 hl
  obtain ⟨next, rfl⟩ := htable.aliases (id, entry) (by simp [hsplit]) mode value others hmodes _ halias
  exact ⟨next, rfl, value, ⟨entry, mode, others, hl, hmodes⟩, halias⟩

namespace StandsAt

lemma start (hl : all.lookup id = some entry)
    (hvalue : HasValue all id value ∨ HasNoMode all id ∧ value = .null) :
    StandsAt all id 0 id value {id} where
  leads := rfl
  value := hvalue
  marked name := by simp [Leads]
  known name hname := by
    have hsame : id = name := by simpa using hname
    exact hsame ▸ Option.isSome_of_eq_some hl

/-- The search goes on to a variable of the table that it has not marked. -/
lemma step (h : StandsAt all id n last value seen) (hnames : Names all last next)
    (hl : all.lookup next = some entry)
    (hvalue : HasValue all next value' ∨ HasNoMode all next ∧ value' = .null) :
    StandsAt all id (n + 1) next value' (seen.insert next) where
  leads := ⟨last, h.leads, hnames⟩
  value := hvalue
  marked name := by
    have hleads : Leads all id (n + 1) next := ⟨last, h.leads, hnames⟩
    rw [Std.TreeSet.contains_insert, Bool.or_eq_true, h.marked, beq_iff_eq, Std.compare_eq_iff_eq]
    constructor
    · rintro (rfl | ⟨k, hk, hname⟩)
      · exact ⟨n + 1, Nat.le_refl _, hleads⟩
      · exact ⟨k, Nat.le_succ_of_le hk, hname⟩
    · rintro ⟨k, hk, hname⟩
      rcases Nat.le_succ_iff.1 hk with hle | rfl
      · exact .inr ⟨k, hle, hname⟩
      · exact .inl (hleads.unique hname)
  known name hname := by
    rw [Std.TreeSet.contains_insert, Bool.or_eq_true, beq_iff_eq, Std.compare_eq_iff_eq] at hname
    rcases hname with rfl | hname
    · exact Option.isSome_of_eq_some hl
    · exact h.known name hname

/-- The marked variables are no more than the table has. -/
lemma size_le (h : StandsAt all id n last value seen) : seen.size ≤ (indexOf all).size := by
  have hnodup : seen.toList.Nodup :=
    Std.TreeSet.distinct_toList.imp fun hne he => hne (Std.compare_eq_iff_eq.2 he)
  have hsub : seen.toList ⊆ (indexOf all).keys := by
    intro name hname
    rw [Std.TreeSet.mem_toList, Std.TreeSet.mem_iff_contains] at hname
    rw [Std.TreeMap.mem_keys, Std.TreeMap.mem_iff_isSome_getElem?, getElem?_indexOf]
    exact h.known name hname
  have hle := (List.subperm_of_subset hnodup hsub).length_le
  rwa [Std.TreeSet.length_toList, Std.TreeMap.length_keys] at hle

/-- Where the chain goes no further, the search ends with the value. -/
lemma finds (h : StandsAt all id n last value seen) (hplain : aliasTarget? value = none) :
    Finds all id value := by
  rcases h.value with hvalue | ⟨hempty, rfl⟩
  · by_cases hnull : value = .null
    · exact .inr ⟨hnull, .null h.leads (hnull ▸ hvalue)⟩
    · exact .inl ⟨hnull, n, last, h.leads, hvalue, hplain⟩
  · exact .inr ⟨rfl, .noMode h.leads hempty⟩

/-- The search ends when it may take as many steps as there are variables not marked yet, and what it finds
is what the chain has. -/
theorem exists_follow_eq_ok (htable : IsVariableTable all) {bound : Nat}
    (h : StandsAt all id n last value seen) (hbound : (indexOf all).size < bound + seen.size) :
    ∃ found, follow (indexOf all) seen value bound = .ok found ∧ Finds all id found := by
  induction bound generalizing n last value seen with
  | zero => exact absurd h.size_le (by omega)
  | succ bound ih =>
    rw [follow]
    cases halias : aliasTarget? value with
    | none => exact ⟨value, rfl, h.finds halias⟩
    | some named =>
      have hvalue : HasValue all last value := h.value.resolve_right fun hnull => by
        rw [hnull.2] at halias
        cases halias
      obtain ⟨next, rfl, hnames⟩ := hvalue.exists_name htable halias
      have hleads : Leads all id (n + 1) next := ⟨last, h.leads, hnames⟩
      have htarget : target? (indexOf all) (.text next) =
          .ok ((all.lookup next).map fun found => (next, found)) := by
        rw [← getElem?_indexOf]
        rfl
      dsimp only
      rw [htarget, ok_bind]
      cases hl : all.lookup next with
      | none => exact ⟨.null, rfl, .inr ⟨rfl, .missing hleads hl⟩⟩
      | some entry =>
        dsimp only [Option.map_some]
        split
        · rename_i hseen
          obtain ⟨k, hk, hfirst⟩ := (h.marked next).1 hseen
          exact ⟨.null, rfl, .inr ⟨rfl, .again (Nat.lt_succ_of_le hk) hfirst hleads⟩⟩
        · rename_i hseen
          obtain ⟨value', hvalue', hhas⟩ := exists_value_of_lookup htable hl
          rw [hvalue', ok_bind]
          -- What the bound loses, the marked variables gain.
          refine ih (h.step hnames hl hhas) ?_
          rw [Std.TreeSet.size_insert, if_neg hseen]
          omega

end StandsAt

/-- The search for the value of a variable ends, within any bound from the size of the table on. It finds
the value that the variable's chain of aliases leads to, however long the chain is, and none exactly when the
chain breaks off. -/
theorem resolvedValue_chain (htable : IsVariableTable all) (hentry : all.lookup id = some entry) :
    ∃ first found, firstModeValue entry = .ok first ∧
      resolvedValue (indexOf all) id entry = .ok found ∧
      (∀ bound ≥ (indexOf all).size, follow (indexOf all) {id} first bound = .ok found) ∧
      (∀ value, value ≠ .null → (found = value ↔ LeadsToValue all id value)) ∧
      (found = .null ↔ BreaksOff all id) := by
  obtain ⟨first, hfirst, hvalue⟩ := exists_value_of_lookup htable hentry
  have hsearch (bound : Nat) (hbound : bound ≥ (indexOf all).size) :
      ∃ found, follow (indexOf all) {id} first bound = .ok found ∧ Finds all id found := by
    refine (StandsAt.start hentry hvalue).exists_follow_eq_ok htable ?_
    have hsize : ({id} : Std.TreeSet Text).size = 1 := rfl
    omega
  obtain ⟨found, hfound, hfinds⟩ := hsearch ((indexOf all).size + 1) (Nat.le_succ _)
  refine ⟨first, found, hfirst, bind_eq_ok.2 ⟨first, hfirst, hfound⟩, fun bound hbound => ?_,
    fun value hne => ⟨?_, fun hleads => ?_⟩, ?_, fun hbreaks => ?_⟩
  · obtain ⟨found', hfound', hfinds'⟩ := hsearch bound hbound
    rw [hfound', hfinds'.unique hfinds]
  · rintro rfl
    rcases hfinds with ⟨-, hleads⟩ | ⟨hnull, -⟩
    · exact hleads
    · exact absurd hnull hne
  · exact hfinds.unique (.inl ⟨hne, hleads⟩)
  · rintro rfl
    rcases hfinds with ⟨hne, -⟩ | ⟨-, hbreaks⟩
    · exact absurd rfl hne
    · exact hbreaks
  · exact hfinds.unique (.inr ⟨rfl, hbreaks⟩)

/-! ### A table with chains -/

/-- The value that stands for another variable. -/
def aliasOf (id : Text) : Value := .record [("type", .text "VARIABLE_ALIAS"), ("id", .text id)]

lemma ModesOf.of_variableOf {name type : Text} (h : ModesOf (variableOf name type value) modes) :
    modes = ([("1:0", value)] : Fields) :=
  h.unique (.given rfl)

/-- Variables with one value each, which may be an alias. -/
lemma isVariableTable_of_forall (h : ∀ v ∈ all, ∃ name type value, v.2 = variableOf name type value ∧
    ∀ id, aliasTarget? value = some id → ∃ name, id = .text name) : IsVariableTable all where
  modes v hv := by
    obtain ⟨name, type, value, he, -⟩ := h v hv
    exact he ▸ ⟨_, .given rfl⟩
  aliases v hv mode value others hmodes := by
    obtain ⟨name, type, value', he, halias⟩ := h v hv
    rw [he] at hmodes
    cases hmodes.of_variableOf
    exact halias

/-- A chain of aliases that leads to a colour, one that runs into a cycle, and one to a missing variable. -/
def shades : Fields := [
  ("1", variableOf "accent" "COLOR" (aliasOf "2")),
  ("2", variableOf "brand" "COLOR" (aliasOf "3")),
  ("3", variableOf "red" "COLOR" red),
  ("4", variableOf "link" "COLOR" (aliasOf "5")),
  ("5", variableOf "hover" "COLOR" (aliasOf "6")),
  ("6", variableOf "focus" "COLOR" (aliasOf "5")),
  ("7", variableOf "shadow" "COLOR" (aliasOf "8"))]

lemma isVariableTable_shades : IsVariableTable shades := by
  refine isVariableTable_of_forall ?_
  simp only [shades, List.forall_mem_cons, List.not_mem_nil, false_implies, implies_true, and_true]
  have halias (id : Text) (found : Value) (h : aliasTarget? (aliasOf id) = some found) :
      ∃ name, found = .text name := ⟨id, (Option.some.inj h).symm⟩
  have hplain (found : Value) (h : aliasTarget? red = some found) : ∃ name, found = .text name := by
    cases h
  exact ⟨⟨_, _, _, rfl, halias _⟩, ⟨_, _, _, rfl, halias _⟩, ⟨_, _, _, rfl, hplain⟩,
    ⟨_, _, _, rfl, halias _⟩, ⟨_, _, _, rfl, halias _⟩, ⟨_, _, _, rfl, halias _⟩,
    ⟨_, _, _, rfl, halias _⟩⟩

theorem resolvedValue_chain_shades :
    IsVariableTable shades ∧
      LeadsToValue shades "1" red ∧ BreaksOff shades "4" ∧ BreaksOff shades "7" ∧
      resolvedValue (indexOf shades) "4" (variableOf "link" "COLOR" (aliasOf "5")) = .ok .null := by
  have hnull : resolvedValue (indexOf shades) "4" (variableOf "link" "COLOR" (aliasOf "5")) = .ok .null := rfl
  obtain ⟨_, found, -, hfound, -, hvalue, -⟩ := resolvedValue_chain isVariableTable_shades
    (rfl : shades.lookup ("1" : Text) = some (variableOf "accent" "COLOR" (aliasOf "2")))
  obtain ⟨_, cycled, -, hcycled, -, -, hcycle⟩ := resolvedValue_chain isVariableTable_shades
    (rfl : shades.lookup ("4" : Text) = some (variableOf "link" "COLOR" (aliasOf "5")))
  obtain ⟨_, missed, -, hmissed, -, -, hmissing⟩ := resolvedValue_chain isVariableTable_shades
    (rfl : shades.lookup ("7" : Text) = some (variableOf "shadow" "COLOR" (aliasOf "8")))
  refine ⟨isVariableTable_shades, (hvalue red nofun).1 ?_, hcycle.1 ?_, hmissing.1 ?_, hnull⟩
  · exact Except.ok.inj (hfound.symm.trans rfl)
  · exact Except.ok.inj (hcycled.symm.trans hnull)
  · exact Except.ok.inj (hmissed.symm.trans rfl)

end Handoff.Token
