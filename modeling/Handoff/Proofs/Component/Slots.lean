import Handoff.Proofs.Component.Annotating
import Mathlib.Data.List.Range

/-!
The text properties of a component are numbered from 1 in the order of their elements.
-/

namespace Handoff

open Design Naming

/-- The numbers of the text elements of trees, in preorder. -/
def slotsOf (forest : Forest Element) : List Nat := (Tree.preorderAll forest).filterMap Element.slot

namespace Annotating

variable {d d' d'' : Draft} {rules : Rules} {axis : Option Axis} {slots more : List Nat}

/-- Between two drafts these numbers were given, one after the other. -/
structure Counted (d d' : Draft) (slots : List Nat) : Prop where
  numbers : slots = List.range' (d.texts + 1) slots.length
  texts : d'.texts = d.texts + slots.length

lemma Counted.of_texts (h : d'.texts = d.texts) : Counted d d' [] := ⟨rfl, h⟩

lemma Counted.append (h : Counted d d' slots) (h' : Counted d' d'' more) :
    Counted d d'' (slots ++ more) where
  numbers := by
    have hnext : d'.texts + 1 = d.texts + 1 + slots.length := by rw [h.texts]; omega
    rw [List.length_append, List.range'_append_1.symm, ← h.numbers, ← hnext, ← h'.numbers]
  texts := by rw [h'.texts, h.texts, List.length_append, Nat.add_assoc]

lemma texts_of_role {tree : LayerTree} {role : Role}
    (h : (Annotating.role tree).run d = .ok (role, d')) : d'.texts = d.texts := by
  obtain ⟨⟨r, roles⟩, -, h⟩ := bind_eq_ok.1 h
  cases h
  rfl

lemma texts_of_elementClass {label : Value} {name : Text}
    (h : (elementClass rules label).run d = .ok (name, d')) : d'.texts = d.texts := by
  obtain ⟨⟨n, given⟩, -, h⟩ := bind_eq_ok.1 h
  cases h
  rfl

lemma counted_slot {role : Role} {number : Option Nat}
    (h : (slot role).run d = .ok (number, d')) : Counted d d' number.toList := by
  simp only [slot, StateT.run] at h
  split at h <;> cases h
  · exact ⟨rfl, rfl⟩
  · exact .of_texts rfl

lemma counted_element {role : Role} {layer : Layer} {e : Element}
    (h : (element rules axis role layer).run d = .ok (e, d')) : Counted d d' e.slot.toList := by
  obtain ⟨u, hname, hslot, -⟩ := element_eq_ok h
  exact (Counted.of_texts (texts_of_elementClass hname)).append (counted_slot hslot)

lemma slotsOf_cons (e : Element) (below rest : Forest Element) :
    slotsOf (.node e below :: rest) = e.slot.toList ++ (slotsOf below ++ slotsOf rest) := by
  cases h : e.slot <;> simp [slotsOf, h, List.filterMap_append]

/-- The numbers that the walk gives. -/
theorem counted_of_walk {ts : Forest Layer} {out : Forest Element} (h : Walk rules axis ts d out d') :
    Counted d d' (slotsOf out) := by
  induction h with
  | nil => exact .of_texts rfl
  | skip hrole _ ihrest => exact (Counted.of_texts (texts_of_role hrole)).append ihrest
  | leaf hrole _ _ htop _ ihrest =>
    rw [slotsOf_cons]
    exact ((Counted.of_texts (texts_of_role hrole)).append (counted_element htop)).append ihrest
  | container hrole htop _ _ ihbelow ihrest =>
    rw [slotsOf_cons]
    have hfirst := (Counted.of_texts (texts_of_role hrole)).append (counted_element htop)
    exact hfirst.append (ihbelow.append ihrest)

lemma counted_rootImage {role : Role} {layer : Layer} {image : Option Element}
    (h : (rootImage rules role layer).run d = .ok (image, d')) :
    d'.texts = d.texts ∧ ∀ e ∈ image, e.slot = none := by
  rcases rootImage_eq_ok h with ⟨-, rfl, rfl⟩ | ⟨e, -, rfl, hname, -, -, -, -, hslot⟩
  · exact ⟨rfl, by simp⟩
  · refine ⟨texts_of_elementClass hname, fun e he => ?_⟩
    cases he
    exact hslot

end Annotating

lemma length_texts (component : Component) :
    component.texts.length = (slotsOf component.forest).length := by
  have hlength (elements : List Element) :
      (elements.filterMap fun e => if e.slot.isSome then some e.layer.characters else none).length =
        (elements.filterMap Element.slot).length := by
    induction elements with
    | nil => rfl
    | cons e rest ih => cases hslot : e.slot <;> simp [hslot, ih]
  exact hlength component.elements

/-- The text properties are named after the numbers. -/
lemma names_of_textProps (component : Component) : component.textProps.map Prod.fst =
    (List.range' 1 component.texts.length).map slotName := by
  have hzip (values : List Value) (k : Nat) : ((values.zipIdx k).map fun t =>
      ((slotName (t.2 + 1), t.1) : Text × Value)).map Prod.fst =
        (List.range' (k + 1) values.length).map slotName := by
    induction values generalizing k with
    | nil => rfl
    | cons value rest ih =>
      rw [List.zipIdx_cons, List.map_cons, List.map_cons, ih, List.length_cons, List.range'_succ,
        List.map_cons]
  exact hzip component.texts 0

/-- The text elements of a component are numbered from 1, in preorder. -/
theorem slots_of_annotate {rules : Rules} {roles roles' : RoleMemo} {root : LayerTree} {name : Text}
    {component : Component} (h : annotate rules roles root name = .ok (component, roles')) :
    slotsOf component.forest = List.range' 1 component.texts.length := by
  obtain ⟨role, d₁, d₂, d₃, rootText, style, hrole, himage, hbody, -⟩ := annotate_eq_ok h
  obtain ⟨htexts, hnone⟩ := Annotating.counted_rootImage himage
  have hbody := Annotating.counted_of_walk (Annotating.walk_of_run _ hbody)
  have hstart : d₂.texts = 0 := htexts.trans (Annotating.texts_of_role hrole)
  have hforest : slotsOf component.forest = slotsOf component.body := by
    unfold Component.forest
    cases hroot : component.rootImage with
    | none => rfl
    | some image =>
      rw [Annotating.slotsOf_cons, hnone image hroot]
      rfl
  have hslots := hbody.numbers
  rw [hstart, ← hforest] at hslots
  rwa [length_texts]

end Handoff
