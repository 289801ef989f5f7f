import Handoff.Proofs.Component.Slots
import Handoff.Proofs.Component.Typed

/-!
The elements of a component in the order of its layers.

The walk leaves layers out but keeps their order, so layers with distinct ids have elements with distinct
keys. The text elements are those with a text property.
-/

namespace Handoff

open Design Naming

/-- An element stands for a layer. It has the key of the layer's id, and a text property exactly when its
role is that of a text. -/
structure Element.StandsFor (layer : Layer) (e : Element) : Prop where
  same : e.layer = layer
  key : layer.id.key = .ok e.key
  text : e.slot.isSome = true ↔ e.role = .text

/-- Some of the layers, in order, are those of the elements. -/
def StandInOrder (layers : List Layer) (elements : List Element) : Prop :=
  ∃ shown, shown.Sublist layers ∧ List.Forall₂ Element.StandsFor shown elements

namespace StandInOrder

variable {layers others : List Layer} {elements more : List Element}

lemma nil (layers : List Layer) : StandInOrder layers [] := ⟨[], List.nil_sublist layers, .nil⟩

lemma append (h : StandInOrder layers elements) (h' : StandInOrder others more) :
    StandInOrder (layers ++ others) (elements ++ more) := by
  obtain ⟨shown, hsub, hall⟩ := h
  obtain ⟨shown', hsub', hall'⟩ := h'
  exact ⟨shown ++ shown', hsub.append hsub', List.rel_append hall hall'⟩

lemma single {layer : Layer} {e : Element} (h : e.StandsFor layer) : StandInOrder [layer] [e] :=
  ⟨[layer], List.Sublist.refl _, .cons h .nil⟩

lemma standsFor (h : StandInOrder layers elements) : ∀ e ∈ elements, e.StandsFor e.layer := by
  obtain ⟨shown, -, hall⟩ := h
  intro e he
  obtain ⟨layer, -, hstands⟩ := exists_of_mem_forall₂ hall he
  rwa [hstands.same]

end StandInOrder

namespace Annotating

variable {rules : Rules} {d d' : Draft} {axis : Option Axis}

lemma standsFor_element {role : Role} {layer : Layer} {e : Element}
    (h : (element rules axis role layer).run d = .ok (e, d')) : e.StandsFor layer := by
  obtain ⟨u, -, hslot, -, hkey, rfl, rfl⟩ := element_eq_ok h
  refine ⟨rfl, hkey, ?_⟩
  simp only [slot, StateT.run] at hslot
  split at hslot
  · rename_i hrole
    rw [← (Prod.mk.inj (Except.ok.inj hslot)).1]
    exact iff_of_true rfl hrole
  · rename_i hrole
    rw [← (Prod.mk.inj (Except.ok.inj hslot)).1]
    exact iff_of_false Bool.false_ne_true hrole

lemma standsFor_rootImage {role : Role} {layer : Layer} {image : Option Element}
    (h : (rootImage rules role layer).run d = .ok (image, d')) :
    ∀ e ∈ image, e.StandsFor layer ∧ e.isAsset = true := by
  rcases rootImage_eq_ok h with ⟨-, rfl, -⟩ | ⟨e, hasset, rfl, -, hkey, rfl, rfl, -, hslot⟩
  · simp
  · intro e he
    cases he
    refine ⟨⟨rfl, hkey, iff_of_false (by simp [hslot]) fun htext => ?_⟩, hasset⟩
    rw [htext] at hasset
    cases hasset

/-- The elements that the walk leaves. -/
theorem standInOrder_of_walk {ts : Forest Layer} {out : Forest Element} (h : Walk rules axis ts d out d') :
    StandInOrder (Tree.preorderAll ts) (Tree.preorderAll out) := by
  induction h with
  | nil => exact .nil _
  | skip _ _ ihrest =>
    rw [Tree.preorderAll_cons]
    exact (StandInOrder.nil _).append ihrest
  | leaf _ _ _ htop _ ihrest =>
    simp only [Tree.preorderAll_cons, Tree.preorder_node, Tree.preorderAll_nil]
    exact ((StandInOrder.single (standsFor_element htop)).append (.nil _)).append ihrest
  | container _ htop _ _ ihbelow ihrest =>
    simp only [Tree.preorderAll_cons, Tree.preorder_node]
    exact ((StandInOrder.single (standsFor_element htop)).append ihbelow).append ihrest

end Annotating

section

variable {rules : Rules} {roles roles' : RoleMemo} {root : LayerTree} {name : Text}
  {component : Component}

/-- The elements of a component stand for layers of the tree, in their order, and a root image is one of
them, and an asset. -/
theorem standInOrder_of_annotate (h : annotate rules roles root name = .ok (component, roles')) :
    StandInOrder root.preorder component.elements ∧
      ∀ image, component.rootImage = some image → image.isAsset = true := by
  obtain ⟨role, d₁, d₂, d₃, rootText, style, -, himage, hbody, -⟩ := annotate_eq_ok h
  have hbelow := Annotating.standInOrder_of_walk (Annotating.walk_of_run root.children hbody)
  have htop := Annotating.standsFor_rootImage himage
  refine ⟨?_, fun image hroot => (htop image hroot).2⟩
  obtain ⟨layer, children⟩ := root
  rw [Tree.preorder_node]
  unfold Component.elements Component.forest
  cases hroot : component.rootImage with
  | none => exact (StandInOrder.nil [layer]).append hbelow
  | some image =>
    simp only [Tree.preorderAll_cons, Tree.preorder_node, Tree.preorderAll_nil]
    exact (StandInOrder.single (htop image hroot).1).append hbelow

/-! ### Keys -/

/-- The text elements of a component, in preorder. -/
def Component.textElements (component : Component) : List Element :=
  component.elements.filter fun e => e.role = .text

/-- The text properties are those of the text elements, numbered from 1. -/
theorem slots_of_textElements (h : annotate rules roles root name = .ok (component, roles')) :
    component.textElements.map Element.slot =
      (List.range' 1 component.textElements.length).map some ∧
      component.texts = component.textElements.map fun e => e.layer.characters := by
  have hstands := (standInOrder_of_annotate h).1.standsFor
  have hslots := slots_of_annotate h
  rw [length_texts] at hslots
  change component.elements.filterMap Element.slot =
    List.range' 1 (component.elements.filterMap Element.slot).length at hslots
  have hfilter (elements : List Element) (hall : ∀ e ∈ elements, e.StandsFor e.layer) :
      (elements.filter fun e => e.role = .text).map Element.slot =
        (elements.filterMap Element.slot).map some ∧
      (elements.filterMap fun e => if e.slot.isSome then some e.layer.characters else none) =
        (elements.filter fun e => e.role = .text).map fun e => e.layer.characters := by
    induction elements with
    | nil => exact ⟨rfl, rfl⟩
    | cons e rest ih =>
      obtain ⟨he, hrest⟩ := List.forall_mem_cons.1 hall
      obtain ⟨hmap, htexts⟩ := ih hrest
      cases hslot : e.slot with
      | none =>
        have hrole : e.role ≠ .text := fun hr => by
          have hsome := he.text.2 hr
          rw [hslot] at hsome
          cases hsome
        simp [hslot, hrole, hmap, htexts]
      | some n =>
        have hrole : e.role = .text := he.text.1 (by simp [hslot])
        simp [hslot, hrole, hmap, htexts]
  obtain ⟨hmap, htexts⟩ := hfilter component.elements hstands
  have hlength : component.textElements.length =
      (component.elements.filterMap Element.slot).length := by
    simpa [Component.textElements] using congrArg List.length hmap
  refine ⟨?_, htexts⟩
  rw [hlength, ← hslots]
  exact hmap

end

end Handoff
