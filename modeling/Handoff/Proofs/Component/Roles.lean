import Handoff.Proofs.Component.Annotating
import Handoff.Proofs.Design.Components
import Handoff.Proofs.Design.Memo

/-!
The roles of elements are those of their layers.

A walk takes a role from the memo when there is one. In a design with distinct ids the memo only has what
was decided for the same layer, so the roles of all elements could have been decided anew, for the first
component and for any later one.
-/

namespace Handoff

open Design Naming

namespace Annotating

variable {α β : Type} {root : LayerTree} {rules : Rules} {axis : Option Axis} {P : α → Prop} {Q : β → Prop}

/-- A step that keeps the memo reading from the design; what it gives has a property. -/
def Faithful (root : LayerTree) (P : α → Prop) (x : Annotating α) : Prop :=
  ∀ d a d', d.roles.ReadsFrom root → x.run d = .ok (a, d') → P a ∧ d'.roles.ReadsFrom root

namespace Faithful

lemma bind {x : Annotating α} {f : α → Annotating β} (h : Faithful root P x)
    (hn : ∀ a, P a → Faithful root Q (f a)) : Faithful root Q (x >>= f) := by
  intro d b d' hd hrun
  obtain ⟨a, u, hx, hf⟩ := run_bind_eq_ok.1 hrun
  obtain ⟨ha, hu⟩ := h d a u hd hx
  exact hn a ha u b d' hu hf

lemma pure {a : α} (h : P a) : Faithful root P (Pure.pure a) := by
  intro d b d' hd hrun
  obtain ⟨rfl, rfl⟩ := run_pure_eq_ok.1 hrun
  exact ⟨h, hd⟩

lemma liftM (r : Except Fault α) : Faithful root (fun _ => True) (liftM r : Annotating α) := by
  intro d b d' hd hrun
  obtain ⟨-, rfl⟩ := run_liftM_eq_ok.1 hrun
  exact ⟨trivial, hd⟩

lemma elementClass (label : Value) :
    Faithful root (fun _ => True) (Annotating.elementClass rules label) := by
  intro d name d' hd hrun
  obtain ⟨⟨given, names⟩, -, h⟩ := bind_eq_ok.1 hrun
  cases h
  exact ⟨trivial, hd⟩

lemma slot (role : Role) : Faithful root (fun _ => True) (Annotating.slot role) := by
  intro d number d' hd hrun
  change (if _ then _ else _) = _ at hrun
  split at hrun <;> cases hrun <;> exact ⟨trivial, hd⟩

end Faithful

/-- The element is that of the layer and has the role. -/
def IsElementOf (layer : Layer) (role : Role) (e : Element) : Prop := e.layer = layer ∧ e.role = role

lemma faithful_element (role : Role) (layer : Layer) :
    Faithful root (IsElementOf layer role) (element rules axis role layer) :=
  (Faithful.elementClass layer.name).bind fun _ _ => (Faithful.slot role).bind fun _ _ =>
    (Faithful.liftM _).bind fun _ _ => (Faithful.liftM _).bind fun _ _ => .pure ⟨rfl, rfl⟩

lemma faithful_rootImage (role : Role) (layer : Layer) :
    Faithful root (fun image => ∀ e ∈ image, IsElementOf layer role e) (rootImage rules role layer) := by
  unfold rootImage
  split
  · refine (Faithful.elementClass _).bind fun _ _ => (Faithful.liftM _).bind fun _ _ => .pure ?_
    rintro e ⟨⟩
    exact ⟨rfl, rfl⟩
  · exact .pure (by simp)

/-- The element stands for a layer inside the design and has the role of the layer. -/
def HasOwnRole (root : LayerTree) (e : Element) : Prop :=
  ∃ u ∈ root.subtrees, e.layer = u.label ∧ roleOf u = .ok e.role

lemma IsElementOf.hasOwnRole {layer : Layer} {role : Role} {e : Element} (h : IsElementOf layer role e)
    {u : LayerTree} (hu : u ∈ root.subtrees) (hlabel : u.label = layer) (hrole : roleOf u = .ok role) :
    HasOwnRole root e := ⟨u, hu, h.1.trans hlabel.symm, h.2 ▸ hrole⟩

lemma faithful_role (hids : IdsApart root) {t : LayerTree} (ht : t ∈ root.subtrees) :
    Faithful root (fun role => roleOf t = .ok role) (role t) := by
  intro d r d' hd hrun
  obtain ⟨⟨found, roles⟩, hfound, h⟩ := bind_eq_ok.1 hrun
  cases h
  exact hd.roleOf_eq hids ht hfound

mutual

/-- The walk over an inner tree. -/
theorem faithful_tree (hids : IdsApart root) (axis : Option Axis) (t : LayerTree)
    (ht : t.subtrees ⊆ root.subtrees) :
    Faithful root (fun out => ∀ e ∈ Tree.preorderAll out.toList, HasOwnRole root e)
      (tree rules axis t) := by
  match t with
  | .node layer children =>
    have htop : Tree.node layer children ∈ root.subtrees := ht (Tree.self_mem_subtrees _)
    rw [Tree.subtrees, List.cons_subset] at ht
    have hbelow := faithful_forest hids layer.axis? children ht.2
    rw [tree]
    refine (faithful_role hids htop).bind fun role hrole => ?_
    split
    · exact .pure (by simp)
    refine (faithful_element role layer).bind fun e he => ?_
    have hown := he.hasOwnRole htop rfl hrole
    split
    · refine hbelow.bind fun below hall => .pure ?_
      simpa using ⟨hown, hall⟩
    · exact .pure (by simpa using hown)

/-- The walk over inner trees side by side. -/
theorem faithful_forest (hids : IdsApart root) (axis : Option Axis) (ts : Forest Layer)
    (hts : Tree.subtreesAll ts ⊆ root.subtrees) :
    Faithful root (fun out => ∀ e ∈ Tree.preorderAll out, HasOwnRole root e)
      (forest rules axis ts) := by
  match ts with
  | [] =>
    rw [forest]
    exact .pure (by simp)
  | t :: ts =>
    rw [Tree.subtreesAll, List.append_subset] at hts
    have hfirst := faithful_tree hids axis t hts.1
    have hrest := faithful_forest hids axis ts hts.2
    rw [forest]
    refine hfirst.bind fun out hout => ?_
    cases out with
    | none => exact hrest
    | some top =>
      refine hrest.bind fun others hothers => .pure ?_
      rw [Tree.preorderAll_cons, List.forall_mem_append]
      exact ⟨by simpa using hout, hothers⟩

end

/-- Annotating a component inside the design keeps the memo reading from the design, and the elements
have the roles of their layers. -/
theorem hasOwnRole_of_annotate (hids : IdsApart root) {rules : Rules} {memo memo' : RoleMemo}
    {t : LayerTree} {name : Text} {component : Component} (hmemo : memo.ReadsFrom root) (ht : t ∈ root.subtrees)
    (h : annotate rules memo t name = .ok (component, memo')) :
    memo'.ReadsFrom root ∧ ∀ e ∈ component.elements, HasOwnRole root e := by
  obtain ⟨⟨c, draft⟩, hc, h⟩ := bind_eq_ok.1 h
  cases h
  have hbelow := Tree.subtreesAll_children_subset ht
  have hfaithful : Faithful root (fun component => ∀ e ∈ component.elements, HasOwnRole root e)
      (Annotating.component rules t name) := by
    refine (faithful_role hids ht).bind fun role hrole => ?_
    refine (faithful_rootImage role t.label).bind fun image himage => ?_
    refine (faithful_forest hids t.label.axis? t.children hbelow).bind fun body hbody => ?_
    refine (Faithful.liftM _).bind fun rootText _ => (Faithful.liftM _).bind fun style _ => .pure ?_
    unfold Component.elements Component.forest
    cases image with
    | none => exact hbody
    | some image =>
      rw [Tree.preorderAll_cons, Tree.preorder_node, Tree.preorderAll_nil]
      exact List.forall_mem_cons.2 ⟨(himage image rfl).hasOwnRole ht rfl hrole, hbody⟩
  exact (hfaithful _ _ _ hmemo hc).symm

end Annotating

end Handoff
