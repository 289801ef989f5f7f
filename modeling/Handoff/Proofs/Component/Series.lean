import Handoff.Proofs.Component.Footprint

/-!
The components of a design in order, named and annotated one after the other.

The names are words, and no two of them are the same without regard to case.
-/

namespace Handoff

open Design Naming Text

/-- The components of trees in order, with the names given and the roles decided so far. -/
def annotateAll (names : ComponentNames) (roles : RoleMemo) :
    List LayerTree → Except Fault (List Component)
  | [] => .ok []
  | tree :: rest => do
    let (name, names) ← names.resolve .standard tree.label.name
    let (component, roles) ← annotate .standard roles tree name
    return component :: (← annotateAll names roles rest)

variable {names : ComponentNames} {roles : RoleMemo} {tree : LayerTree} {rest trees : List LayerTree}
  {components : List Component}

/-- The first component gets its name and is annotated, and then the others. -/
lemma annotateAll_cons_eq_ok (h : annotateAll names roles (tree :: rest) = .ok components) :
    ∃ name names' component roles' others,
      names.resolve .standard tree.label.name = .ok (name, names') ∧
      annotate .standard roles tree name = .ok (component, roles') ∧
      annotateAll names' roles' rest = .ok others ∧ components = component :: others := by
  obtain ⟨⟨name, names'⟩, hname, h⟩ := bind_eq_ok.1 h
  obtain ⟨⟨component, roles'⟩, hcomponent, h⟩ := bind_eq_ok.1 h
  obtain ⟨others, hothers, h⟩ := bind_eq_ok.1 h
  cases h
  exact ⟨name, names', component, roles', others, hname, hcomponent, hothers, rfl⟩

/-- A component has the name and the top layer that it was annotated with. -/
lemma name_of_annotate {rules : Rules} {roles' : RoleMemo} {root : LayerTree} {name : Text}
    {component : Component} (h : annotate rules roles root name = .ok (component, roles')) :
    component.name = name ∧ component.source = root.label := by
  obtain ⟨-, -, -, -, -, -, -, -, -, -, -, hname, hsource, -⟩ := annotate_eq_ok h
  exact ⟨hname, hsource⟩

/-- There is one component for each tree, in the same order. -/
theorem source_of_annotateAll (h : annotateAll names roles trees = .ok components) :
    components.map Component.source = trees.map Tree.label := by
  induction trees generalizing names roles components with
  | nil =>
    cases h
    rfl
  | cons tree rest ih =>
    obtain ⟨name, names', component, roles', others, -, hcomponent, hothers, rfl⟩ :=
      annotateAll_cons_eq_ok h
    rw [List.map_cons, List.map_cons, (name_of_annotate hcomponent).2, ih hothers]

lemma length_of_annotateAll (h : annotateAll names roles trees = .ok components) :
    components.length = trees.length := by
  have hsources := congrArg List.length (source_of_annotateAll h)
  rwa [List.length_map, List.length_map] at hsources

/-- A component name of a series: a word with a capital in front that was not taken before. -/
structure IsFreshName (names : ComponentNames) (name : Text) : Prop where
  word : Over isWordChar name
  ne_empty : name ≠ ""
  large : BeginsLarge name
  free : names.taken name = false

/-- The names of the components of trees in order, with the names given so far. -/
def nameAll (names : ComponentNames) : List LayerTree → Except Fault (List Text)
  | [] => .ok []
  | tree :: rest => do
    let (name, names) ← names.resolve .standard tree.label.name
    return name :: (← nameAll names rest)

/-- The first component gets its name, and then the others. -/
lemma nameAll_cons_eq_ok {given : List Text} (h : nameAll names (tree :: rest) = .ok given) :
    ∃ name names' others, names.resolve .standard tree.label.name = .ok (name, names') ∧
      nameAll names' rest = .ok others ∧ given = name :: others := by
  obtain ⟨⟨name, names'⟩, hname, h⟩ := bind_eq_ok.1 h
  obtain ⟨others, hothers, h⟩ := bind_eq_ok.1 h
  cases h
  exact ⟨name, names', others, hname, hothers, rfl⟩

/-- Given names are fresh, and no two are the same without regard to case. -/
theorem fresh_of_nameAll {given : List Text} (h : nameAll names trees = .ok given) :
    (∀ name ∈ given, IsFreshName names name) ∧ given.Pairwise fun a b => lower a ≠ lower b := by
  induction trees generalizing names given with
  | nil =>
    cases h
    exact ⟨List.forall_mem_nil _, .nil⟩
  | cons tree rest ih =>
    obtain ⟨name, names', others, hname, hothers, rfl⟩ := nameAll_cons_eq_ok h
    obtain ⟨hword, hne, hfree, hused⟩ := ComponentNames.resolve_eq_ok hname
    obtain ⟨hfresh, hpairwise⟩ := ih hothers
    -- A name that is fresh after the first one differs from it and was fresh before.
    have hafter (other : Text) (ho : other ∈ others) := (taken_insert hused).1 (hfresh other ho).free
    refine ⟨List.forall_mem_cons.2 ⟨?_, fun other ho => ?_⟩, List.pairwise_cons.2 ⟨?_, hpairwise⟩⟩
    · exact ⟨hword, hne, ComponentNames.resolve_beginsLarge hname, hfree⟩
    · have hother := hfresh other ho
      exact ⟨hother.word, hother.ne_empty, hother.large, (hafter other ho).2⟩
    · exact fun other ho => (hafter other ho).1.symm

/-- The components of a series have the names of their trees. -/
lemma nameAll_of_annotateAll (h : annotateAll names roles trees = .ok components) :
    nameAll names trees = .ok (components.map Component.name) := by
  induction trees generalizing names roles components with
  | nil =>
    cases h
    rfl
  | cons tree rest ih =>
    obtain ⟨name, names', component, roles', others, hname, hcomponent, hothers, rfl⟩ :=
      annotateAll_cons_eq_ok h
    rw [nameAll, hname, ok_bind, List.map_cons, (name_of_annotate hcomponent).1]
    simp only [ih hothers, ok_bind]
    rfl

/-- The first names do not depend on the trees that follow. -/
lemma nameAll_append_eq_ok {more : List LayerTree} {given all : List Text}
    (h : nameAll names trees = .ok given) (hall : nameAll names (trees ++ more) = .ok all) :
    all = given ++ all.drop trees.length := by
  induction trees generalizing names given all with
  | nil =>
    cases h
    rfl
  | cons tree rest ih =>
    obtain ⟨name, names', others, hname, hothers, rfl⟩ := nameAll_cons_eq_ok h
    obtain ⟨name', names'', others', hname', hothers', rfl⟩ := nameAll_cons_eq_ok hall
    cases hname.symm.trans hname'
    rw [List.cons_append, List.length_cons, List.drop_succ_cons, ← ih hothers hothers']

/-- The names in a series are fresh, and no two are the same without regard to case. -/
theorem names_of_annotateAll (h : annotateAll names roles trees = .ok components) :
    (∀ component ∈ components, IsFreshName names component.name) ∧
      components.Pairwise fun a b => lower a.name ≠ lower b.name := by
  obtain ⟨hfresh, hpairwise⟩ := fresh_of_nameAll (nameAll_of_annotateAll h)
  rw [List.pairwise_map] at hpairwise
  exact ⟨fun component hc => hfresh _ (List.mem_map_of_mem hc), hpairwise⟩

/-- Each component of a series is annotated from one of the trees. -/
lemma exists_annotate_of_mem (h : annotateAll names roles trees = .ok components) :
    ∀ component ∈ components, ∃ tree ∈ trees, ∃ before after,
      annotate .standard before tree component.name = .ok (component, after) := by
  induction trees generalizing names roles components with
  | nil =>
    cases h
    exact List.forall_mem_nil _
  | cons tree rest ih =>
    obtain ⟨name, names', component, roles', others, -, hcomponent, hothers, rfl⟩ :=
      annotateAll_cons_eq_ok h
    rw [List.forall_mem_cons]
    constructor
    · refine ⟨tree, List.mem_cons_self, roles, roles', ?_⟩
      rwa [(name_of_annotate hcomponent).1]
    · intro other ho
      obtain ⟨t, ht, hannotate⟩ := ih hothers other ho
      exact ⟨t, List.mem_cons_of_mem _ ht, hannotate⟩

/-- A name in a series from the start is none of the reserved names. -/
lemma IsFreshName.ne_reserved {name : Text} (h : IsFreshName (.initial .standard) name) :
    name ∉ Rules.standard.reserved := by
  intro hmem
  have htaken : (ComponentNames.initial .standard).taken name = true := by
    rw [ComponentNames.taken, ComponentNames.initial, Std.TreeSet.contains_ofList]
    simpa using ⟨name, hmem, rfl⟩
  rw [h.free] at htaken
  cases htaken

end Handoff
