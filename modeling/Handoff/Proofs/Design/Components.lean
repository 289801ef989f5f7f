import Handoff.Design.Components
import Handoff.Proofs.World.Running

/-!
The components of a design are its layers of the component types, in preorder, the first one of
every id.
-/

namespace Handoff.Design

/-- The top layer is of a component type. -/
def IsComponent (tree : LayerTree) : Prop := ∃ type ∈ componentTypes, tree.label.typeName = .text type

/-- The key of the id of the top layer. -/
def keyOf (tree : LayerTree) : Except Fault Key := tree.label.id.key

lemma text_of_key {value : Value} {s : Text} (h : value.key = .ok (.text s)) : value = .text s := by
  cases value with
  | text t =>
    cases h
    rfl
  | double x =>
    have hdouble : Key.ofDouble x = .text s := Except.ok.inj h
    unfold Key.ofDouble at hdouble
    split at hdouble
    · split at hdouble <;> cases hdouble
    · cases hdouble
  | _ => cases h

lemma kind_eq_component {layer : Layer} :
    layer.kind = .ok .component ↔ ∃ type ∈ componentTypes, layer.typeName = .text type := by
  constructor
  · intro h
    obtain ⟨isComponent, hone, h⟩ := bind_eq_ok.1 h
    cases isComponent with
    | true =>
      obtain ⟨key, hkey, hone⟩ := bind_eq_ok.1 hone
      cases key with
      | text s =>
        have hmem : componentTypes.contains s = true := Except.ok.inj hone
        exact ⟨s, List.contains_iff_mem.1 hmem, text_of_key hkey⟩
      | _ => cases hone
    | false =>
      -- No other kind is that of components.
      simp only [Bool.false_eq_true, if_false] at h
      split at h
      · cases h
      · obtain ⟨isVector, -, h⟩ := bind_eq_ok.1 h
        split at h
        · cases h
        · obtain ⟨isContainer, -, h⟩ := bind_eq_ok.1 h
          split at h <;> cases h
  · rintro ⟨type, hmem, htype⟩
    have hone : layer.typeName.isOneOf componentTypes = .ok true := by
      rw [htype]
      exact congrArg Except.ok (List.contains_iff_mem.2 hmem)
    rw [Layer.kind, hone]
    rfl

/-- The components among trees in order, each id once: the first layer of every id that was not seen
before. -/
structure AreComponents (seen : List Key) (trees components : List LayerTree) : Prop where
  sublist : components.Sublist trees
  component : ∀ t ∈ components, IsComponent t ∧ ∃ key, keyOf t = .ok key ∧ key ∉ seen
  distinct : (components.map keyOf).Nodup
  complete : ∀ u ∈ trees, IsComponent u →
    ∃ key, keyOf u = .ok key ∧ (key ∈ seen ∨ ∃ t ∈ components, keyOf t = .ok key)
  first : ∀ t ∈ components, ∃ before after, trees = before ++ t :: after ∧
    ∀ u ∈ before, IsComponent u → keyOf u ≠ keyOf t

/-- A layer in front that is left out: it is of another type or its id was seen. -/
lemma AreComponents.skip {seen : List Key} {trees components : List LayerTree} {tree : LayerTree}
    (h : AreComponents seen trees components)
    (hskip : IsComponent tree → ∃ key ∈ seen, keyOf tree = .ok key) :
    AreComponents seen (tree :: trees) components where
  sublist := h.sublist.cons tree
  component := h.component
  distinct := h.distinct
  complete := List.forall_mem_cons.2 ⟨fun htree => by
    obtain ⟨key, hseen, hkey⟩ := hskip htree
    exact ⟨key, hkey, Or.inl hseen⟩, h.complete⟩
  first t ht := by
    obtain ⟨before, after, hsplit, hfirst⟩ := h.first t ht
    refine ⟨tree :: before, after, by rw [hsplit, List.cons_append], ?_⟩
    refine List.forall_mem_cons.2 ⟨fun htree heq => ?_, hfirst⟩
    obtain ⟨key, hseen, hkey⟩ := hskip htree
    obtain ⟨-, other, hother, hfree⟩ := h.component t ht
    rw [hkey, hother] at heq
    rw [Except.ok.inj heq] at hseen
    exact hfree hseen

/-- A component in front whose id was not seen is taken. -/
lemma AreComponents.take {seen : List Key} {trees components : List LayerTree} {tree : LayerTree}
    {key : Key} (h : AreComponents (key :: seen) trees components) (htree : IsComponent tree)
    (hkey : keyOf tree = .ok key) (hfree : key ∉ seen) :
    AreComponents seen (tree :: trees) (tree :: components) where
  sublist := h.sublist.cons_cons tree
  component := List.forall_mem_cons.2 ⟨⟨htree, key, hkey, hfree⟩, fun t ht => by
    obtain ⟨hcomponent, other, hother, hout⟩ := h.component t ht
    exact ⟨hcomponent, other, hother, fun hmem => hout (List.mem_cons_of_mem _ hmem)⟩⟩
  distinct := by
    refine List.nodup_cons.2 ⟨fun hmem => ?_, h.distinct⟩
    obtain ⟨t, ht, heq⟩ := List.mem_map.1 hmem
    obtain ⟨-, other, hother, hout⟩ := h.component t ht
    rw [hkey, hother] at heq
    rw [Except.ok.inj heq] at hout
    exact hout List.mem_cons_self
  complete := by
    refine List.forall_mem_cons.2 ⟨fun _ => ⟨key, hkey, Or.inr ⟨tree, List.mem_cons_self, hkey⟩⟩,
      fun u hu hcomponent => ?_⟩
    obtain ⟨other, hother, hseen | ⟨t, ht, htkey⟩⟩ := h.complete u hu hcomponent
    · rcases List.mem_cons.1 hseen with rfl | hseen
      · exact ⟨other, hother, Or.inr ⟨tree, List.mem_cons_self, hkey⟩⟩
      · exact ⟨other, hother, Or.inl hseen⟩
    · exact ⟨other, hother, Or.inr ⟨t, List.mem_cons_of_mem _ ht, htkey⟩⟩
  first := by
    refine List.forall_mem_cons.2 ⟨⟨[], trees, rfl, nofun⟩, fun t ht => ?_⟩
    obtain ⟨before, after, hsplit, hfirst⟩ := h.first t ht
    refine ⟨tree :: before, after, by rw [hsplit, List.cons_append], ?_⟩
    refine List.forall_mem_cons.2 ⟨fun _ heq => ?_, hfirst⟩
    obtain ⟨-, other, hother, hout⟩ := h.component t ht
    rw [hkey, hother] at heq
    rw [Except.ok.inj heq] at hout
    exact hout List.mem_cons_self

theorem areComponents_of_componentsAmong {seen : List Key} {trees components : List LayerTree}
    (h : componentsAmong seen trees = .ok components) : AreComponents seen trees components := by
  induction trees generalizing seen components with
  | nil =>
    cases h
    exact ⟨.slnil, nofun, .nil, nofun, nofun⟩
  | cons tree rest ih =>
    obtain ⟨kind, hkind, h⟩ := bind_eq_ok.1 h
    by_cases hcomponent : kind = .component
    · rw [if_pos hcomponent] at h
      obtain ⟨key, hkey, h⟩ := bind_eq_ok.1 h
      by_cases hseen : seen.contains key = true
      · rw [if_pos hseen] at h
        exact (ih h).skip fun _ => ⟨key, List.contains_iff_mem.1 hseen, hkey⟩
      · rw [if_neg hseen] at h
        obtain ⟨others, hothers, h⟩ := bind_eq_ok.1 h
        cases h
        rw [hcomponent] at hkind
        exact (ih hothers).take (kind_eq_component.1 hkind) hkey
          fun hmem => hseen (List.contains_iff_mem.2 hmem)
    · rw [if_neg hcomponent] at h
      refine (ih h).skip fun htree => absurd ?_ hcomponent
      exact Except.ok.inj (hkind.symm.trans (kind_eq_component.2 htree))

end Handoff.Design
