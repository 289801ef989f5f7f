import Handoff.Component.Annotation
import Handoff.Proofs.World.Running

/-!
Running the walk that annotates a component, step by step.

A run of the walk is a derivation of `Walk`, which has a rule for each thing that can happen to a layer. What
the walk keeps or leaves is shown by induction on it. First of all, every element stands for a layer of the
component's tree and has the key of the layer's id.
-/

namespace Handoff

open Design Naming

namespace Annotating

variable {α β : Type}

lemma run_bind_eq_ok {x : Annotating α} {f : α → Annotating β} {d d' : Draft} {b : β} :
    (x >>= f).run d = .ok (b, d') ↔
      ∃ a u, x.run d = .ok (a, u) ∧ (f a).run u = .ok (b, d') := by
  rw [StateT.run_bind, bind_eq_ok]
  exact Prod.exists

lemma run_pure_eq_ok {a b : α} {d d' : Draft} :
    (pure a : Annotating α).run d = .ok (b, d') ↔ a = b ∧ d = d' := by
  rw [StateT.run_pure]
  simp [pure, Except.pure]

lemma run_liftM_eq_ok {r : Except Fault α} {b : α} {d d' : Draft} :
    (liftM r : Annotating α).run d = .ok (b, d') ↔ r = .ok b ∧ d = d' := by
  cases r <;> simp [liftM, monadLift, MonadLift.monadLift, StateT.lift, StateT.run, Except.bind,
    bind, pure, Except.pure]

end Annotating

/-- What the walk over a component does, in order. -/
lemma annotate_eq_ok {rules : Rules} {roles roles' : RoleMemo} {root : LayerTree} {name : Text}
    {component : Component} (h : annotate rules roles root name = .ok (component, roles')) :
    ∃ role d₁ d₂ d₃ rootText style,
      (Annotating.role root).run ⟨roles, .empty, 0⟩ = .ok (role, d₁) ∧
      (Annotating.rootImage rules role root.label).run d₁ = .ok (component.rootImage, d₂) ∧
      (Annotating.forest rules root.label.axis? root.children).run d₂ = .ok (component.body, d₃) ∧
      firstTextStyle? root.preorder = .ok rootText ∧
      styleOf root.label (.root rootText) = .ok style ∧
      component.name = name ∧ component.source = root.label ∧ component.style = style := by
  obtain ⟨⟨c, draft⟩, hc, h⟩ := bind_eq_ok.1 h
  cases h
  obtain ⟨role, d₁, hrole, hc⟩ := Annotating.run_bind_eq_ok.1 hc
  obtain ⟨image, d₂, himage, hc⟩ := Annotating.run_bind_eq_ok.1 hc
  obtain ⟨body, d₃, hbody, hc⟩ := Annotating.run_bind_eq_ok.1 hc
  obtain ⟨rootText, d₄, htext, hc⟩ := Annotating.run_bind_eq_ok.1 hc
  obtain ⟨style, d₅, hstyle, hc⟩ := Annotating.run_bind_eq_ok.1 hc
  obtain ⟨rfl, rfl⟩ := Annotating.run_pure_eq_ok.1 hc
  exact ⟨role, d₁, d₂, d₃, rootText, style, hrole, himage, hbody,
    (Annotating.run_liftM_eq_ok.1 htext).1, (Annotating.run_liftM_eq_ok.1 hstyle).1, rfl, rfl, rfl⟩

/-! ### The walk -/

namespace Annotating

variable {rules : Rules} {d d' : Draft}

/-- What an element has of its layer, and what it is given. -/
lemma element_eq_ok {axis : Option Axis} {role : Role} {layer : Layer} {e : Element}
    (h : (element rules axis role layer).run d = .ok (e, d')) :
    ∃ u, (elementClass rules layer.name).run d = .ok (e.elementClass, u) ∧
      (slot role).run u = .ok (e.slot, d') ∧ styleOf layer (.child axis role.isAsset) = .ok e.style ∧
      layer.id.key = .ok e.key ∧ e.layer = layer ∧ e.role = role := by
  obtain ⟨name, u, hname, h⟩ := run_bind_eq_ok.1 h
  obtain ⟨number, v, hslot, h⟩ := run_bind_eq_ok.1 h
  obtain ⟨style, v', hstyle, h⟩ := run_bind_eq_ok.1 h
  obtain ⟨key, v'', hkey, h⟩ := run_bind_eq_ok.1 h
  obtain ⟨rfl, rfl⟩ := run_pure_eq_ok.1 h
  obtain ⟨hstyled, rfl⟩ := run_liftM_eq_ok.1 hstyle
  obtain ⟨hkeyed, rfl⟩ := run_liftM_eq_ok.1 hkey
  exact ⟨u, hname, hslot, hstyled, hkeyed, rfl, rfl⟩

/-- A root that is no asset leaves no image; one that is an asset leaves one. -/
lemma rootImage_eq_ok {role : Role} {layer : Layer} {image : Option Element}
    (h : (rootImage rules role layer).run d = .ok (image, d')) :
    (role.isAsset = false ∧ image = none ∧ d' = d) ∨
      ∃ e, role.isAsset = true ∧ image = some e ∧
        (elementClass rules (.text "image")).run d = .ok (e.elementClass, d') ∧ layer.id.key = .ok e.key ∧
        e.layer = layer ∧ e.role = role ∧ e.style = rootImageStyle ∧ e.slot = none := by
  unfold rootImage at h
  split at h
  · rename_i hasset
    obtain ⟨name, u, hname, h⟩ := run_bind_eq_ok.1 h
    obtain ⟨key, v, hkey, h⟩ := run_bind_eq_ok.1 h
    obtain ⟨rfl, rfl⟩ := run_pure_eq_ok.1 h
    obtain ⟨hkeyed, rfl⟩ := run_liftM_eq_ok.1 hkey
    exact .inr ⟨_, hasset, rfl, hname, hkeyed, rfl, rfl, rfl, rfl⟩
  · rename_i hasset
    obtain ⟨rfl, rfl⟩ := run_pure_eq_ok.1 h
    exact .inl ⟨Bool.eq_false_iff.2 hasset, rfl, rfl⟩

/-- The walk over layers side by side in a container with an axis: the draft before, the elements that it
leaves, and the draft after. A layer is left out as a decoration, leaves an element alone, or is a container
and is entered. -/
inductive Walk (rules : Rules) : Option Axis → Forest Layer → Draft → Forest Element → Draft → Prop
  | nil {axis : Option Axis} {d : Draft} : Walk rules axis [] d [] d
  | skip {axis : Option Axis} {layer : Layer} {children rest : Forest Layer} {d u d' : Draft}
      {out : Forest Element} (hrole : (role (.node layer children)).run d = .ok (.decoration, u))
      (hrest : Walk rules axis rest u out d') : Walk rules axis (.node layer children :: rest) d out d'
  | leaf {axis : Option Axis} {layer : Layer} {children rest : Forest Layer} {d u v d' : Draft}
      {out : Forest Element} {r : Role} {e : Element}
      (hrole : (role (.node layer children)).run d = .ok (r, u)) (hshown : r ≠ .decoration)
      (hleaf : r ≠ .container) (htop : (element rules axis r layer).run u = .ok (e, v))
      (hrest : Walk rules axis rest v out d') :
      Walk rules axis (.node layer children :: rest) d (.node e [] :: out) d'
  | container {axis : Option Axis} {layer : Layer} {children rest : Forest Layer} {d u v w d' : Draft}
      {below out : Forest Element} {e : Element}
      (hrole : (role (.node layer children)).run d = .ok (.container, u))
      (htop : (element rules axis .container layer).run u = .ok (e, v))
      (hbelow : Walk rules layer.axis? children v below w) (hrest : Walk rules axis rest w out d') :
      Walk rules axis (.node layer children :: rest) d (.node e below :: out) d'

mutual

/-- A run over the tree of a layer begins the walk over layers side by side. -/
theorem walk_of_tree (t : LayerTree) {axis : Option Axis} {rest : Forest Layer} {d u d' : Draft}
    {top : Option (Tree Element)} {out : Forest Element} (h : (tree rules axis t).run d = .ok (top, u))
    (hrest : Walk rules axis rest u out d') : Walk rules axis (t :: rest) d (top.toList ++ out) d' := by
  match t with
  | .node layer children =>
    obtain ⟨r, v, hrole, h⟩ := run_bind_eq_ok.1 h
    split at h
    · rename_i hdecoration
      obtain ⟨rfl, rfl⟩ := run_pure_eq_ok.1 h
      exact .skip (hdecoration ▸ hrole) hrest
    rename_i hshown
    obtain ⟨e, w, htop, h⟩ := run_bind_eq_ok.1 h
    split at h
    · rename_i hcontainer
      obtain ⟨below, w', hbelow, h⟩ := run_bind_eq_ok.1 h
      obtain ⟨rfl, rfl⟩ := run_pure_eq_ok.1 h
      exact .container (hcontainer ▸ hrole) (hcontainer ▸ htop) (walk_of_run children hbelow) hrest
    · rename_i hleaf
      obtain ⟨rfl, rfl⟩ := run_pure_eq_ok.1 h
      exact .leaf hrole hshown hleaf htop hrest

/-- A run over layers side by side is a walk. -/
theorem walk_of_run (ts : Forest Layer) {axis : Option Axis} {d d' : Draft} {out : Forest Element}
    (h : (forest rules axis ts).run d = .ok (out, d')) : Walk rules axis ts d out d' := by
  match ts with
  | [] =>
    obtain ⟨rfl, rfl⟩ := run_pure_eq_ok.1 h
    exact .nil
  | t :: ts =>
    obtain ⟨top, u, htop, h⟩ := run_bind_eq_ok.1 h
    cases top with
    | none => exact walk_of_tree t htop (walk_of_run ts h)
    | some top =>
      obtain ⟨rest, v, hrest, h⟩ := run_bind_eq_ok.1 h
      obtain ⟨rfl, rfl⟩ := run_pure_eq_ok.1 h
      exact walk_of_tree t htop (walk_of_run ts hrest)

end

end Annotating

/-! ### The layers of elements -/

/-- An element stands for one of the layers, and has the key of its id. -/
structure Element.StandsAmong (e : Element) (layers : List Layer) : Prop where
  layer : e.layer ∈ layers
  key : e.layer.id.key = .ok e.key

lemma Element.StandsAmong.mono {e : Element} {layers layers' : List Layer}
    (h : e.StandsAmong layers) (hsub : layers ⊆ layers') : e.StandsAmong layers' :=
  ⟨hsub h.layer, h.key⟩

namespace Annotating

variable {rules : Rules} {d d' : Draft} {axis : Option Axis}

lemma standsAmong_element {role : Role} {layer : Layer} {e : Element}
    (h : (element rules axis role layer).run d = .ok (e, d')) : e.StandsAmong [layer] := by
  obtain ⟨u, -, -, -, hkey, rfl, -⟩ := element_eq_ok h
  exact ⟨List.mem_singleton_self _, hkey⟩

lemma standsAmong_rootImage {role : Role} {layer : Layer} {image : Option Element}
    (h : (rootImage rules role layer).run d = .ok (image, d')) :
    ∀ e ∈ image, e.StandsAmong [layer] := by
  rcases rootImage_eq_ok h with ⟨-, rfl, -⟩ | ⟨e, -, rfl, -, hkey, rfl, -⟩
  · simp
  · intro e he
    cases he
    exact ⟨List.mem_singleton_self _, hkey⟩

/-- The elements that the walk leaves. -/
theorem standsAmong_of_walk {ts : Forest Layer} {out : Forest Element} (h : Walk rules axis ts d out d') :
    ∀ e ∈ Tree.preorderAll out, e.StandsAmong (Tree.preorderAll ts) := by
  induction h with
  | nil =>
    rw [Tree.preorderAll_nil]
    exact List.forall_mem_nil _
  | skip _ _ ihrest =>
    rw [Tree.preorderAll_cons]
    exact fun e he => (ihrest e he).mono (List.subset_append_right _ _)
  | leaf _ _ _ htop _ ihrest =>
    simp only [Tree.preorderAll_cons, Tree.preorder_node, Tree.preorderAll_nil, List.cons_append,
      List.nil_append, List.forall_mem_cons]
    refine ⟨(standsAmong_element htop).mono (by simp), fun e he => (ihrest e he).mono ?_⟩
    exact List.subset_cons_of_subset _ (List.subset_append_right _ _)
  | container _ htop _ _ ihbelow ihrest =>
    simp only [Tree.preorderAll_cons, Tree.preorder_node, List.cons_append, List.forall_mem_cons,
      List.forall_mem_append]
    refine ⟨(standsAmong_element htop).mono (by simp), fun e he => (ihbelow e he).mono ?_,
      fun e he => (ihrest e he).mono ?_⟩
    · exact List.subset_cons_of_subset _ (List.subset_append_left _ _)
    · exact List.subset_cons_of_subset _ (List.subset_append_right _ _)

end Annotating

/-- Every element of a component stands for a layer of the tree. -/
theorem standsAmong_of_annotate {rules : Rules} {roles roles' : RoleMemo} {root : LayerTree}
    {name : Text} {component : Component} (h : annotate rules roles root name = .ok (component, roles')) :
    ∀ e ∈ component.elements, e.StandsAmong root.preorder := by
  obtain ⟨role, d₁, d₂, d₃, rootText, style, -, himage, hbody, -⟩ := annotate_eq_ok h
  have hbelow := Annotating.standsAmong_of_walk (Annotating.walk_of_run root.children hbody)
  obtain ⟨layer, children⟩ := root
  rw [Tree.preorder_node]
  have hbody : ∀ e ∈ Tree.preorderAll component.body,
      e.StandsAmong (layer :: Tree.preorderAll children) := fun e he =>
    (hbelow e he).mono (List.subset_cons_self _ _)
  unfold Component.elements Component.forest
  cases hroot : component.rootImage with
  | none => exact hbody
  | some image =>
    have hfirst := Annotating.standsAmong_rootImage himage image hroot
    simp only [Tree.preorderAll_cons, Tree.preorder_node, Tree.preorderAll_nil, List.cons_append,
      List.nil_append, List.forall_mem_cons]
    exact ⟨hfirst.mono (List.cons_subset_cons layer (List.nil_subset _)), hbody⟩

end Handoff
