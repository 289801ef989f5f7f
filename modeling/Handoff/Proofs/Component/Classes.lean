import Handoff.Proofs.Component.Annotating
import Handoff.Proofs.Naming.Fresh

/-!
What the walk over a component leaves: elements with distinct classes, and nothing but containers
with elements inside.
-/

namespace Handoff

open Design Naming Text

/-- The classes of the elements of trees, in preorder. -/
def classesOf (forest : Forest Element) : List Text :=
  (Tree.preorderAll forest).map Element.elementClass

/-- Only containers have elements inside. -/
def OnlyContainersNest (forest : Forest Element) : Prop :=
  ∀ tree ∈ Tree.subtreesAll forest, tree.children ≠ [] → tree.label.role = .container

lemma onlyContainersNest_cons {e : Element} {below rest : Forest Element} :
    OnlyContainersNest (.node e below :: rest) ↔
      (below ≠ [] → e.role = .container) ∧ OnlyContainersNest below ∧ OnlyContainersNest rest := by
  simp only [OnlyContainersNest, Tree.subtreesAll, Tree.subtrees, List.cons_append,
    List.forall_mem_cons, List.forall_mem_append, Tree.children, Tree.label]

lemma onlyContainersNest_nil : OnlyContainersNest [] := nofun

namespace Annotating

variable {d d' d'' : Draft} {rules : Rules} {axis : Option Axis} {names more : List Text}

/-- Between two drafts these classes were given: distinct slugs that were free, and taken from then
on. -/
structure Gave (d d' : Draft) (names : List Text) : Prop where
  slugs : ∀ name ∈ names, Over isSlugChar name
  ne_empty : ∀ name ∈ names, name ≠ ""
  free : ∀ name ∈ names, d.names.used.contains name = false
  nodup : names.Nodup
  used : ∀ name, d'.names.used.contains name = true ↔
    d.names.used.contains name = true ∨ name ∈ names

lemma Gave.of_names (h : d'.names = d.names) : Gave d d' [] := by
  refine ⟨by simp, by simp, by simp, List.nodup_nil, fun name => ?_⟩
  rw [h]
  simp

lemma Gave.append (h : Gave d d' names) (h' : Gave d' d'' more) : Gave d d'' (names ++ more) where
  slugs := List.forall_mem_append.2 ⟨h.slugs, h'.slugs⟩
  ne_empty := List.forall_mem_append.2 ⟨h.ne_empty, h'.ne_empty⟩
  free := by
    refine List.forall_mem_append.2 ⟨h.free, fun name hn => ?_⟩
    have hfree := h'.free name hn
    rw [Bool.eq_false_iff] at hfree ⊢
    exact fun hc => hfree ((h.used _).2 (Or.inl hc))
  nodup := by
    rw [List.nodup_append]
    refine ⟨h.nodup, h'.nodup, ?_⟩
    rintro name hn _ hm rfl
    have hfree := h'.free name hm
    rw [(h.used _).2 (Or.inr hn)] at hfree
    cases hfree
  used name := by
    rw [h'.used, h.used, List.mem_append, or_assoc]

lemma gave_elementClass {label : Value} {name : Text}
    (h : (elementClass .standard label).run d = .ok (name, d')) : Gave d d' [name] := by
  obtain ⟨⟨n, given⟩, hn, h⟩ := bind_eq_ok.1 h
  cases h
  obtain ⟨hover, hne, hfree, hused⟩ := ElementNames.resolve_eq_ok hn
  refine ⟨by simpa using hover, by simpa using hne, by simpa using hfree, by simp, fun other => ?_⟩
  rw [hused, Std.TreeSet.contains_insert, Bool.or_eq_true, beq_iff_eq,
    Std.LawfulEqCmp.compare_eq_iff_eq, List.mem_singleton, or_comm]
  exact or_congr_right eq_comm

lemma names_of_role {tree : LayerTree} {role : Role}
    (h : (Annotating.role tree).run d = .ok (role, d')) : d'.names = d.names := by
  obtain ⟨⟨r, roles⟩, -, h⟩ := bind_eq_ok.1 h
  cases h
  rfl

lemma names_of_slot {role : Role} {number : Option Nat}
    (h : (slot role).run d = .ok (number, d')) : d'.names = d.names := by
  simp only [slot, StateT.run] at h
  split at h <;> cases h <;> rfl

lemma gave_element {role : Role} {layer : Layer} {e : Element}
    (h : (element .standard axis role layer).run d = .ok (e, d')) :
    Gave d d' [e.elementClass] ∧ e.role = role := by
  obtain ⟨u, hname, hslot, -, -, -, hrole⟩ := element_eq_ok h
  exact ⟨(gave_elementClass hname).append (.of_names (names_of_slot hslot)), hrole⟩

lemma classesOf_cons (e : Element) (below rest : Forest Element) :
    classesOf (.node e below :: rest) = [e.elementClass] ++ (classesOf below ++ classesOf rest) := by
  simp [classesOf]

/-- The classes that the walk gives, and what it leaves. -/
theorem gave_of_walk {ts : Forest Layer} {out : Forest Element} (h : Walk .standard axis ts d out d') :
    Gave d d' (classesOf out) ∧ OnlyContainersNest out := by
  induction h with
  | nil => exact ⟨.of_names rfl, onlyContainersNest_nil⟩
  | skip hrole _ ihrest => exact ⟨(Gave.of_names (names_of_role hrole)).append ihrest.1, ihrest.2⟩
  | leaf hrole _ _ htop _ ihrest =>
    obtain ⟨hgave, -⟩ := gave_element htop
    rw [classesOf_cons, onlyContainersNest_cons]
    refine ⟨((Gave.of_names (names_of_role hrole)).append hgave).append ihrest.1, ?_⟩
    exact ⟨fun hne => absurd rfl hne, onlyContainersNest_nil, ihrest.2⟩
  | container hrole htop _ _ ihbelow ihrest =>
    obtain ⟨hgave, hcontainer⟩ := gave_element htop
    rw [classesOf_cons, onlyContainersNest_cons]
    have hfirst := (Gave.of_names (names_of_role hrole)).append hgave
    exact ⟨hfirst.append (ihbelow.1.append ihrest.1), fun _ => hcontainer, ihbelow.2, ihrest.2⟩

lemma gave_rootImage {role : Role} {layer : Layer} {image : Option Element}
    (h : (rootImage .standard role layer).run d = .ok (image, d')) :
    Gave d d' (image.toList.map Element.elementClass) := by
  rcases rootImage_eq_ok h with ⟨-, rfl, rfl⟩ | ⟨e, -, rfl, hname, -⟩
  · exact .of_names rfl
  · exact gave_elementClass hname

end Annotating

/-- Annotating a component gives the classes of its elements, and only containers have elements
inside. -/
lemma gave_of_annotate {roles roles' : RoleMemo} {root : LayerTree} {name : Text}
    {component : Component} (h : annotate .standard roles root name = .ok (component, roles')) :
    (∃ d d', Annotating.Gave d d' (classesOf component.forest)) ∧
      OnlyContainersNest component.forest := by
  obtain ⟨role, d₁, d₂, d₃, rootText, style, hrole, himage, hbody, -⟩ := annotate_eq_ok h
  obtain ⟨hgave, hnest⟩ := Annotating.gave_of_walk (Annotating.walk_of_run _ hbody)
  have hall := (Annotating.gave_rootImage himage).append hgave
  have hclasses : component.rootImage.toList.map Element.elementClass ++ classesOf component.body =
      classesOf component.forest := by
    unfold Component.forest
    cases component.rootImage with
    | none => rfl
    | some image => simp [classesOf]
  rw [hclasses] at hall
  refine ⟨⟨_, _, hall⟩, ?_⟩
  unfold Component.forest
  cases component.rootImage with
  | none => exact hnest
  | some image =>
    exact onlyContainersNest_cons.2 ⟨fun hne => absurd rfl hne, onlyContainersNest_nil, hnest⟩

/-- The elements of a component have distinct slugs as their classes, and only containers have
elements inside. -/
theorem classes_of_annotate {roles roles' : RoleMemo} {root : LayerTree} {name : Text}
    {component : Component} (h : annotate .standard roles root name = .ok (component, roles')) :
    component.name = name ∧ (∀ c ∈ classesOf component.forest, Over isSlugChar c) ∧
      (classesOf component.forest).Nodup ∧ OnlyContainersNest component.forest := by
  obtain ⟨-, -, -, -, -, -, -, -, -, -, -, hname, -⟩ := annotate_eq_ok h
  obtain ⟨⟨d, d', hgave⟩, hnest⟩ := gave_of_annotate h
  exact ⟨hname, hgave.slugs, hgave.nodup, hnest⟩

/-- No element of a component has an empty class. -/
theorem classes_ne_empty_of_annotate {roles roles' : RoleMemo} {root : LayerTree} {name : Text}
    {component : Component} (h : annotate .standard roles root name = .ok (component, roles')) :
    ∀ c ∈ classesOf component.forest, c ≠ "" := by
  obtain ⟨⟨d, d', hgave⟩, -⟩ := gave_of_annotate h
  exact hgave.ne_empty

end Handoff
