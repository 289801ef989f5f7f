import Handoff.Proofs.Component.Annotating
import Handoff.Proofs.Design.Styling

/-!
The walk over a component whose layers have typed fields goes through, whatever roles were decided
before.
-/

namespace Handoff

open Design Naming

/-- The layer of an element has typed fields with numbers of at most this size, and so has its style. -/
structure Element.TypedWithin (bound : ℚ) (element : Element) : Prop where
  layer : element.layer.TypedWithin bound
  style : element.style.Measurable bound

/-- All layers of a tree have typed fields with numbers of at most this size. -/
def TypedTreeWithin (bound : ℚ) (root : LayerTree) : Prop := ∀ layer ∈ root.preorder, layer.TypedWithin bound

/-- The numbers of a component are of at most this size. -/
structure Component.TypedWithin (bound : ℚ) (component : Component) : Prop where
  source : component.source.TypedWithin bound
  style : component.style.Measurable bound
  elements : ∀ element ∈ component.elements, element.TypedWithin bound

/-! ### Numbers within the range of doubles -/

/-- All layers of a tree have typed fields. -/
def WellTypedTree (root : LayerTree) : Prop := ∀ layer ∈ root.preorder, layer.WellTyped

/-- The layer of an element has typed fields, and its style can be written. -/
abbrev Element.WellTyped (element : Element) : Prop := element.TypedWithin Numeric.Binary64.largest

/-- A component whose elements and own style can be written. -/
abbrev Component.WellTyped (component : Component) : Prop :=
  component.TypedWithin Numeric.Binary64.largest

/-- What holds of all layers of a tree holds of the one on top and of those below. -/
lemma Tree.top_and_below {α : Type} {P : α → Prop} {root : Tree α} (h : ∀ a ∈ root.preorder, P a) :
    P root.label ∧ ∀ a ∈ Tree.preorderAll root.children, P a := by
  cases root with
  | node a children =>
    rw [Tree.preorder_node, List.forall_mem_cons] at h
    exact h

lemma WellTypedTree.top_and_below {root : LayerTree} (h : WellTypedTree root) :
    root.label.WellTyped ∧ ∀ layer ∈ Tree.preorderAll root.children, layer.WellTyped :=
  Tree.top_and_below h

variable {bound : ℚ}

lemma roleOf_eq_ok {tree : LayerTree} (h : tree.label.TypedWithin bound) : ∃ role, roleOf tree = .ok role := by
  obtain ⟨format, hformat, -⟩ := h.exportTyped.exportFormat
  obtain ⟨b, hb⟩ := h.typeName.isOneOf nonVisualTypes
  unfold roleOf
  simp only [hformat, ok_bind]
  split
  · exact ⟨_, rfl⟩
  · exact ⟨_, rfl⟩
  split
  · exact ⟨_, rfl⟩
  rw [hb, ok_bind]
  split
  · exact ⟨_, rfl⟩
  split
  · exact ⟨_, rfl⟩
  · exact ⟨_, rfl⟩

namespace Annotating

variable {α β : Type} {P : α → Prop} {Q : β → Prop} {rules : Rules} {axis : Option Axis}

/-- From every draft the step goes through, and its result has a property. -/
def Gives (x : Annotating α) (P : α → Prop) : Prop := ∀ d, ∃ a d', x.run d = .ok (a, d') ∧ P a

lemma Gives.bind {x : Annotating α} {f : α → Annotating β} (hx : Gives x P)
    (hf : ∀ a, P a → Gives (f a) Q) : Gives (x >>= f) Q := by
  intro d
  obtain ⟨a, u, hu, ha⟩ := hx d
  obtain ⟨b, d', hd, hb⟩ := hf a ha u
  exact ⟨b, d', run_bind_eq_ok.2 ⟨a, u, hu, hd⟩, hb⟩

lemma gives_pure {a : α} (h : P a) : Gives (pure a) P := fun d => ⟨a, d, rfl, h⟩

lemma gives_liftM {r : Except Fault α} (h : ∃ a, r = .ok a ∧ P a) :
    Gives (liftM r : Annotating α) P := by
  obtain ⟨a, rfl, ha⟩ := h
  exact fun d => ⟨a, d, rfl, ha⟩

lemma gives_key {layer : Layer} (h : layer.TypedWithin bound) :
    Gives (liftM layer.id.key : Annotating Key) fun _ => True := by
  obtain ⟨id, -, hkey⟩ := h.id.key
  exact gives_liftM ⟨_, hkey, trivial⟩

lemma gives_role (tree : LayerTree) (h : tree.label.TypedWithin bound) : Gives (role tree) fun _ => True := by
  intro d
  obtain ⟨id, -, hkey⟩ := h.id.key
  obtain ⟨r, hr⟩ := roleOf_eq_ok h
  have hmemo : ∃ result, d.roles.role tree = .ok result := by
    unfold RoleMemo.role
    rw [hkey, ok_bind]
    split
    · exact ⟨_, rfl⟩
    · rw [hr]
      exact ⟨_, rfl⟩
  obtain ⟨⟨r', roles⟩, hresult⟩ := hmemo
  exact ⟨r', { d with roles }, bind_eq_ok.2 ⟨_, hresult, rfl⟩, trivial⟩

lemma gives_elementClass {label : Value} (h : label.IsSomeText) :
    Gives (elementClass rules label) fun _ => True := by
  intro d
  obtain ⟨s, hs⟩ := Value.IsTextOrNull.orElse_empty (Or.inr h) .noSuchField
  have hslug : slugOf label = .ok (Text.slug s) := bind_eq_ok.2 ⟨s, hs, rfl⟩
  exact ⟨_, _, bind_eq_ok.2 ⟨_, bind_eq_ok.2 ⟨_, hslug, rfl⟩, rfl⟩, trivial⟩

lemma gives_slot (role : Role) : Gives (slot role) fun _ => True := by
  intro d
  unfold slot
  by_cases h : role = .text
  · exact ⟨_, _, if_pos h, trivial⟩
  · exact ⟨_, _, if_neg h, trivial⟩

lemma gives_element {role : Role} {layer : Layer} (h : layer.TypedWithin bound) :
    Gives (element rules axis role layer) (Element.TypedWithin bound) := by
  refine (gives_elementClass h.name).bind fun name _ => ?_
  refine (gives_slot role).bind fun number _ => ?_
  refine (gives_liftM (styleOf_eq_ok h fun _ ht => by cases ht)).bind fun style hstyle => ?_
  refine (gives_key h).bind fun key _ => ?_
  exact gives_pure ⟨h, hstyle⟩

/-- The elements of trees can be written. -/
def AllTyped (bound : ℚ) (forest : Forest Element) : Prop := ∀ e ∈ Tree.preorderAll forest, e.TypedWithin bound

lemma allTyped_nil : AllTyped bound [] := by simp [AllTyped]

lemma allTyped_node {e : Element} {below : Forest Element} (he : e.TypedWithin bound) (h : AllTyped bound below) :
    AllTyped bound [.node e below] := by
  simpa [AllTyped] using ⟨he, h⟩

mutual

theorem gives_tree (t : LayerTree) (ht : ∀ layer ∈ t.preorder, layer.TypedWithin bound) {axis : Option Axis} :
    Gives (tree rules axis t) fun out => AllTyped bound out.toList := by
  match t with
  | .node layer children =>
    rw [Tree.preorder_node, List.forall_mem_cons] at ht
    obtain ⟨hlayer, hchildren⟩ := ht
    rw [tree]
    refine (gives_role (.node layer children) hlayer).bind fun role _ => ?_
    split
    · exact gives_pure allTyped_nil
    refine (gives_element hlayer).bind fun e he => ?_
    split
    · refine (gives_forest children hchildren).bind fun below hbelow => ?_
      exact gives_pure (allTyped_node he hbelow)
    · exact gives_pure (allTyped_node he allTyped_nil)

theorem gives_forest (ts : Forest Layer) (ht : ∀ layer ∈ Tree.preorderAll ts, layer.TypedWithin bound)
    {axis : Option Axis} : Gives (forest rules axis ts) (AllTyped bound) := by
  match ts with
  | [] =>
    rw [forest]
    exact gives_pure allTyped_nil
  | t :: ts =>
    rw [Tree.preorderAll_cons, List.forall_mem_append] at ht
    obtain ⟨hfirst, hrest⟩ := ht
    rw [forest]
    refine (gives_tree t hfirst).bind fun first htop => ?_
    cases first with
    | none => exact gives_forest ts hrest
    | some annotated =>
      refine (gives_forest ts hrest).bind fun rest hall => gives_pure ?_
      have htop' : ∀ e ∈ annotated.preorder, e.TypedWithin bound := by simpa [AllTyped] using htop
      rw [AllTyped, Tree.preorderAll_cons, List.forall_mem_append]
      exact ⟨htop', hall⟩

end

lemma measurable_rootImageStyle : rootImageStyle.Measurable bound where
  gap := Or.inl rfl
  padding := nofun
  borderRadius := Or.inl rfl
  text := nofun

lemma gives_rootImage {role : Role} {layer : Layer} (h : layer.TypedWithin bound) :
    Gives (rootImage rules role layer) fun image => ∀ e, image = some e → e.TypedWithin bound := by
  unfold rootImage
  split
  · refine (gives_elementClass ⟨"image", rfl⟩).bind fun name _ => ?_
    refine (gives_key h).bind fun key _ => gives_pure ?_
    rintro e ⟨⟩
    exact ⟨h, measurable_rootImageStyle⟩
  · exact gives_pure (by rintro e ⟨⟩)

lemma gives_component {root : LayerTree} (h : TypedTreeWithin bound root) (name : Text) :
    Gives (component rules root name) (Component.TypedWithin bound) := by
  have hroot := Tree.top_and_below h
  refine (gives_role root hroot.1).bind fun role _ => ?_
  refine (gives_rootImage hroot.1).bind fun image himage => ?_
  refine (gives_forest root.children hroot.2).bind fun body hbody => ?_
  refine (gives_liftM (firstTextStyle_eq_ok h)).bind fun rootText hrootText => ?_
  refine (gives_liftM (styleOf_eq_ok hroot.1 hrootText)).bind fun style hstyle => ?_
  refine gives_pure ⟨hroot.1, hstyle, ?_⟩
  cases image with
  | none => exact hbody
  | some e =>
    have helements : ({ name, source := root.label, style, rootImage := some e, body } :
        Component).elements = e :: Tree.preorderAll body := by
      simp [Component.elements, Component.forest]
    rw [helements, List.forall_mem_cons]
    exact ⟨himage e rfl, hbody⟩

end Annotating

/-- A component with typed layers is annotated, and its numbers are no greater than theirs. -/
theorem exists_annotate_within {rules : Rules} (roles : RoleMemo) {root : LayerTree}
    (h : TypedTreeWithin bound root) (name : Text) : ∃ component roles',
      annotate rules roles root name = .ok (component, roles') ∧ component.TypedWithin bound := by
  have hgives : Annotating.Gives (Annotating.component rules root name) (Component.TypedWithin bound) :=
    Annotating.gives_component h name
  obtain ⟨component, draft, hrun, htyped⟩ := hgives ⟨roles, .empty, 0⟩
  exact ⟨component, draft.roles, bind_eq_ok.2 ⟨_, hrun, rfl⟩, htyped⟩

/-- A component with typed layers is annotated, and every number in it can be written. -/
theorem exists_annotate_eq_ok {rules : Rules} (roles : RoleMemo) {root : LayerTree}
    (h : WellTypedTree root) (name : Text) : ∃ component roles',
      annotate rules roles root name = .ok (component, roles') ∧ component.WellTyped :=
  exists_annotate_within roles h name

end Handoff
