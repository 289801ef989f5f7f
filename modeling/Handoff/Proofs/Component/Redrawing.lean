import Handoff.Component.Artifacts
import Handoff.Proofs.Component.Annotating
import Handoff.Proofs.Data.Table
import Handoff.Proofs.Design.Typed

/-!
What is drawn inside an exported picture.

The walk over a component stops at assets, so the elements of a component do not depend on the layers
inside an asset. One thing does: the typography at the top of the component is that of the first
layer inside it that shows text, and that search goes into assets. With that typography given, the
children of an asset make no difference to any file of the component.
-/

namespace Handoff

open Design Naming Render

namespace Design

/-- Whether a layer is exported as a picture, as its own fields say. -/
def Layer.IsAsset (layer : Layer) : Prop := ∃ format, layer.exportFormat? = .ok (some format)

/-- Whether the id of a layer is this key. -/
def Layer.hasKey (layer : Layer) (key : Key) : Bool :=
  match layer.id.key with
  | .ok k => k = key
  | .error _ => false

mutual

/-- A tree in which a layer, known by its key, has other children. -/
def redraw (key : Key) (drawing : Forest Layer) : LayerTree → LayerTree
  | .node layer children =>
    .node layer (if layer.hasKey key then drawing else redrawAll key drawing children)

/-- Trees side by side in which a layer, known by its key, has other children. -/
def redrawAll (key : Key) (drawing : Forest Layer) : Forest Layer → Forest Layer
  | [] => []
  | t :: ts => redraw key drawing t :: redrawAll key drawing ts

end

variable {key : Key} {drawing : Forest Layer}

lemma hasKey_iff {layer : Layer} : layer.hasKey key = true ↔ layer.id.key = .ok key := by
  unfold Layer.hasKey
  split
  · rename_i k hk
    rw [hk, decide_eq_true_iff]
    exact ⟨congrArg _, fun h => Except.ok.inj h⟩
  · rename_i fault hk
    simp [hk]

@[simp] lemma label_redraw (t : LayerTree) : (redraw key drawing t).label = t.label := by
  match t with
  | .node layer children => rfl

@[simp] lemma isEmpty_redrawAll (ts : Forest Layer) :
    (redrawAll key drawing ts).isEmpty = ts.isEmpty := by
  cases ts <;> rfl

/-- The role of an asset does not depend on what is drawn inside it. -/
lemma Layer.IsAsset.roleOf {layer : Layer} (h : layer.IsAsset) :
    ∃ role : Role, role.isAsset = true ∧
      ∀ children, Design.roleOf (.node layer children) = .ok role := by
  obtain ⟨format, hformat⟩ := h
  cases format with
  | svg => exact ⟨.vectorAsset, rfl, fun children => by
      simp only [Design.roleOf, Tree.label, hformat]; rfl⟩
  | png => exact ⟨.rasterAsset, rfl, fun children => by
      simp only [Design.roleOf, Tree.label, hformat]; rfl⟩

/-- The role of any layer depends on its children only by whether there are any. -/
lemma roleOf_congr {layer : Layer} {children others : Forest Layer}
    (h : others.isEmpty = children.isEmpty) :
    roleOf (.node layer others) = roleOf (.node layer children) := by
  simp only [roleOf, Tree.label, Tree.children, h]
  rfl

end Design

namespace Annotating

variable {α β : Type} {key : Key} {drawing : Forest Layer} {rules : Rules} {axis : Option Axis}

/-- The roles decided so far do not deny that a layer is an asset. -/
def Keeps (key : Key) (d : Draft) : Prop :=
  ∀ role, d.roles.lookup key = some role → role.isAsset = true

/-- Two walks that do the same and leave the asset an asset; what they give has a property. -/
def Agree (key : Key) (P : α → Prop) (x y : Annotating α) : Prop :=
  ∀ d, Keeps key d → x.run d = y.run d ∧
    ∀ a d', y.run d = .ok (a, d') → P a ∧ Keeps key d'

variable {P : α → Prop} {Q : β → Prop}

lemma Agree.bind {x y : Annotating α} {f g : α → Annotating β} (h : Agree key P x y)
    (hn : ∀ a, P a → Agree key Q (f a) (g a)) : Agree key Q (x >>= f) (y >>= g) := by
  intro d hd
  obtain ⟨hsame, hkeeps⟩ := h d hd
  rw [StateT.run_bind, StateT.run_bind, hsame]
  rcases hy : y.run d with fault | ⟨a, u⟩
  · exact ⟨rfl, nofun⟩
  · obtain ⟨ha, hu⟩ := hkeeps a u hy
    exact hn a ha u hu

/-- A step that decides no role. -/
lemma Agree.of_roles {x : Annotating α}
    (h : ∀ d a d', x.run d = .ok (a, d') → d'.roles = d.roles) : Agree key (fun _ => True) x x := by
  intro d hd
  refine ⟨rfl, fun a d' ha => ⟨trivial, ?_⟩⟩
  rw [Keeps, h d a d' ha]
  exact hd

lemma Agree.pure (a : α) : Agree key (fun _ => True) (Pure.pure a) (Pure.pure a) :=
  .of_roles fun d _ d' h => by rw [(run_pure_eq_ok.1 h).2]

lemma Agree.liftM (r : Except Fault α) :
    Agree key (fun _ => True) (liftM r : Annotating α) (liftM r) :=
  .of_roles fun d _ d' h => by rw [(run_liftM_eq_ok.1 h).2]

lemma agree_elementClass (label : Value) :
    Agree key (fun _ => True) (elementClass rules label) (elementClass rules label) := by
  refine .of_roles fun d name d' h => ?_
  obtain ⟨⟨given, names⟩, -, h⟩ := bind_eq_ok.1 h
  cases h
  rfl

lemma agree_slot (role : Role) : Agree key (fun _ => True) (slot role) (slot role) := by
  refine .of_roles fun d number d' h => ?_
  change (if _ then _ else _) = _ at h
  by_cases hrole : role = .text
  · rw [if_pos hrole] at h
    cases h
    rfl
  · rw [if_neg hrole] at h
    cases h
    rfl

lemma agree_element (role : Role) (layer : Layer) :
    Agree key (fun _ => True) (element rules axis role layer) (element rules axis role layer) := by
  refine (agree_elementClass layer.name).bind fun name _ => ?_
  refine (agree_slot role).bind fun number _ => ?_
  refine (Agree.liftM _).bind fun style _ => ?_
  exact (Agree.liftM _).bind fun k _ => .pure _

lemma agree_rootImage (role : Role) (layer : Layer) :
    Agree key (fun _ => True) (rootImage rules role layer) (rootImage rules role layer) := by
  unfold rootImage
  split
  · refine (agree_elementClass _).bind fun name _ => ?_
    exact (Agree.liftM _).bind fun k _ => .pure _
  · exact .pure _

/-- Deciding the role of a layer whose children were exchanged without a change of its role. -/
lemma agree_role {layer : Layer} {children others : Forest Layer}
    (hrole : roleOf (.node layer others) = roleOf (.node layer children))
    (hasset : layer.hasKey key = true → layer.IsAsset) :
    Agree key (fun role => layer.hasKey key = true → role.isAsset = true)
      (role (.node layer others)) (role (.node layer children)) := by
  intro d hd
  have hmemo : d.roles.role (.node layer others) = d.roles.role (.node layer children) := by
    unfold RoleMemo.role
    rw [hrole]
    rfl
  refine ⟨show (_ >>= _) = (_ >>= _) by rw [hmemo], fun r d' h => ?_⟩
  obtain ⟨⟨found, roles⟩, hfound, h⟩ := bind_eq_ok.1 h
  cases h
  obtain ⟨k, hk, hfound⟩ := bind_eq_ok.1 hfound
  have hkey (h : layer.hasKey key = true) : k = key :=
    Except.ok.inj (hk.symm.trans (hasKey_iff.1 h))
  -- A role that is decided now is that of the layer's fields.
  have hown (h : layer.hasKey key = true) {own : Role}
      (hown : roleOf (.node layer children) = .ok own) : own.isAsset = true := by
    obtain ⟨known, hknown, hroles⟩ := (hasset h).roleOf
    rw [hroles] at hown
    cases hown
    exact hknown
  split at hfound
  · rename_i known hknown
    cases hfound
    exact ⟨fun h => hd _ (by rw [← hkey h]; exact hknown), hd⟩
  · obtain ⟨own, howned, hfound⟩ := bind_eq_ok.1 hfound
    cases hfound
    refine ⟨fun h => hown h howned, fun other hother => ?_⟩
    rw [Table.lookup_put] at hother
    split at hother
    · rename_i hsame
      cases hother
      exact hown (hasKey_iff.2 (by rw [eq_of_beq hsame]; exact hk)) howned
    · exact hd other hother

mutual

/-- The walk over a tree does not see what is drawn inside an asset. -/
theorem agree_tree (axis : Option Axis) (t : LayerTree)
    (hasset : ∀ layer ∈ t.preorder, layer.hasKey key = true → layer.IsAsset) :
    Agree key (fun _ => True) (tree rules axis (redraw key drawing t)) (tree rules axis t) := by
  match t with
  | .node layer children =>
    rw [Tree.preorder_node] at hasset
    have htop := hasset layer List.mem_cons_self
    rw [redraw, tree, tree]
    by_cases hkey : layer.hasKey key = true
    · -- An asset is neither left out nor entered, whatever is drawn inside it.
      rw [if_pos hkey]
      obtain ⟨known, -, hknown⟩ := (htop hkey).roleOf
      refine (agree_role (by rw [hknown, hknown]) htop).bind fun role hrole => ?_
      have hdecoration : role ≠ .decoration := by rintro rfl; cases hrole hkey
      have hcontainer : role ≠ .container := by rintro rfl; cases hrole hkey
      simp only [if_neg hdecoration, if_neg hcontainer]
      exact (agree_element role layer).bind fun e _ => .pure _
    · rw [if_neg hkey]
      have hbelow := agree_forest layer.axis? children fun below hmem =>
        hasset below (List.mem_cons_of_mem _ hmem)
      refine (agree_role (roleOf_congr (isEmpty_redrawAll children)) htop).bind fun role _ => ?_
      by_cases hdecoration : role = .decoration
      · simp only [if_pos hdecoration]
        exact .pure _
      · simp only [if_neg hdecoration]
        refine (agree_element role layer).bind fun e _ => ?_
        by_cases hcontainer : role = .container
        · simp only [if_pos hcontainer]
          exact hbelow.bind fun ts _ => .pure _
        · simp only [if_neg hcontainer]
          exact .pure _

/-- The walk over trees side by side does not see what is drawn inside an asset. -/
theorem agree_forest (axis : Option Axis) (ts : Forest Layer)
    (hasset : ∀ layer ∈ Tree.preorderAll ts, layer.hasKey key = true → layer.IsAsset) :
    Agree key (fun _ => True) (forest rules axis (redrawAll key drawing ts))
      (forest rules axis ts) := by
  match ts with
  | [] =>
    rw [redrawAll, forest]
    exact .pure _
  | t :: ts =>
    rw [Tree.preorderAll_cons] at hasset
    have hfirst := agree_tree axis t fun layer hmem =>
      hasset layer (List.mem_append_left _ hmem)
    have hrest := agree_forest axis ts fun layer hmem =>
      hasset layer (List.mem_append_right _ hmem)
    rw [redrawAll, forest, forest]
    refine hfirst.bind fun annotated _ => ?_
    cases annotated with
    | none => exact hrest
    | some annotated => exact hrest.bind fun rest _ => .pure _

end

end Annotating

/-! ### The component and its files -/

section Artifacts

variable {rules : Rules} {roles : RoleMemo} {root : LayerTree} {key : Key} {name : Text}
variable (drawing : Forest Layer)

/-- What is drawn anew: the layers with the key are assets strictly inside the component, and the
roles decided before do not say otherwise. -/
structure Redrawn (key : Key) (roles : RoleMemo) (root : LayerTree) : Prop where
  inside : root.label.hasKey key = false
  assets : ∀ layer ∈ Tree.preorderAll root.children, layer.hasKey key = true → layer.IsAsset
  decided : ∀ role, roles.lookup key = some role → role.isAsset = true

lemma Redrawn.redraw_eq (h : Redrawn key roles root) :
    redraw key drawing root = .node root.label (redrawAll key drawing root.children) := by
  obtain ⟨layer, children⟩ := root
  rw [redraw, if_neg (by rw [show layer.hasKey key = false from h.inside]; exact Bool.false_ne_true)]
  rfl

/-- The steps of the walk over a component before its typography is looked for. -/
lemma Redrawn.agree (h : Redrawn key roles root) (rules : Rules) (drawing : Forest Layer) :
    Annotating.Agree key (fun _ => True) (Annotating.role (redraw key drawing root))
        (Annotating.role root) ∧
      Annotating.Agree key (fun _ => True)
        (Annotating.forest rules root.label.axis? (redraw key drawing root).children)
        (Annotating.forest rules root.label.axis? root.children) := by
  rw [h.redraw_eq drawing]
  obtain ⟨layer, children⟩ := root
  refine ⟨fun d hd => ?_, Annotating.agree_forest _ children h.assets⟩
  have hnot : layer.hasKey key = true → layer.IsAsset := fun htop =>
    absurd (h.inside.symm.trans htop) Bool.false_ne_true
  obtain ⟨hsame, hkeeps⟩ := Annotating.agree_role (roleOf_congr (isEmpty_redrawAll children)) hnot
    d hd
  exact ⟨hsame, fun role d' hrun => ⟨trivial, (hkeeps role d' hrun).2⟩⟩

/-- With the same typography at the top the component is the same. -/
lemma Redrawn.annotate_eq (h : Redrawn key roles root)
    (htext : firstTextStyle? (redraw key drawing root).preorder = firstTextStyle? root.preorder) :
    annotate rules roles (redraw key drawing root) name = annotate rules roles root name := by
  obtain ⟨hrole, hforest⟩ := h.agree rules drawing
  have hcomponent : Annotating.Agree key (fun _ => True)
      (Annotating.component rules (redraw key drawing root) name)
      (Annotating.component rules root name) := by
    unfold Annotating.component
    rw [label_redraw, htext]
    refine hrole.bind fun role _ => ?_
    refine (Annotating.agree_rootImage role root.label).bind fun image _ => ?_
    refine hforest.bind fun body _ => ?_
    refine (Annotating.Agree.liftM _).bind fun rootText _ => ?_
    exact (Annotating.Agree.liftM _).bind fun style _ => .pure _
  unfold annotate
  rw [(hcomponent ⟨roles, .empty, 0⟩ h.decided).1]

/-- The files of a second component are those of a first one, the style sheet as far as the
typography at the top is the same. -/
structure RenderAlike (component other : Component) : Prop where
  template : ∀ files path, template files other path = template files component path
  catalog : catalog other = catalog component
  twig : ∀ files path, twig files path other = twig files path component
  stylesheet : other.style.text = component.style.text →
    ∀ files, stylesheet files other = stylesheet files component

/-- The typography of what is inside a component is all that a style at the top takes from there. -/
lemma styleOf_root {layer : Layer} {text text' : Option TextStyle} {style style' : Style}
    (h : styleOf layer (.root text) = .ok style) (h' : styleOf layer (.root text') = .ok style') :
    style' = { style with text := style'.text } := by
  obtain ⟨flexBox, hflex, h⟩ := bind_eq_ok.1 h
  obtain ⟨⟨width, growsWide⟩, hwidth, h⟩ := bind_eq_ok.1 h
  obtain ⟨⟨height, growsHigh⟩, hheight, h⟩ := bind_eq_ok.1 h
  obtain ⟨flexBox', hflex', h'⟩ := bind_eq_ok.1 h'
  obtain ⟨⟨width', growsWide'⟩, hwidth', h'⟩ := bind_eq_ok.1 h'
  obtain ⟨⟨height', growsHigh'⟩, hheight', h'⟩ := bind_eq_ok.1 h'
  cases hflex.symm.trans hflex'
  cases hwidth.symm.trans hwidth'
  cases hheight.symm.trans hheight'
  dsimp only [Placement.root] at h h'
  by_cases hboxed : (!false && !layer.isOfTextType) = true
  · simp only [if_pos hboxed] at h h'
    obtain ⟨background, hbackground, h⟩ := bind_eq_ok.1 h
    obtain ⟨background', hbackground', h'⟩ := bind_eq_ok.1 h'
    cases hbackground.symm.trans hbackground'
    obtain ⟨own, -, h⟩ := bind_eq_ok.1 h
    obtain ⟨own', -, h'⟩ := bind_eq_ok.1 h'
    cases h
    cases h'
    rfl
  · simp only [if_neg hboxed, pure_bind] at h h'
    obtain ⟨own, -, h⟩ := bind_eq_ok.1 h
    obtain ⟨own', -, h'⟩ := bind_eq_ok.1 h'
    cases h
    cases h'
    rfl

/-- Everything is the same but what the style at the top says about typography. -/
lemma Redrawn.component_eq (h : Redrawn key roles root) {component other : Component}
    {memo memo' : RoleMemo} (hc : annotate rules roles root name = .ok (component, memo))
    (hc' : annotate rules roles (redraw key drawing root) name = .ok (other, memo')) :
    ∃ text, other = { component with style := { component.style with text } } := by
  obtain ⟨hrole, hforest⟩ := h.agree rules drawing
  obtain ⟨role, d₁, d₂, d₃, rootText, style, hr, hi, hf, -, hs, hname, hsource, hstyle⟩ :=
    annotate_eq_ok hc
  obtain ⟨role', d₁', d₂', d₃', rootText', style', hr', hi', hf', -, hs', hname', hsource',
    hstyle'⟩ := annotate_eq_ok hc'
  rw [label_redraw] at hi' hf' hs' hsource'
  have hd : Annotating.Keeps key ⟨roles, .empty, 0⟩ := h.decided
  obtain ⟨hsame, hkeeps⟩ := hrole _ hd
  have hd₁ := (hkeeps role d₁ hr).2
  cases hr.symm.trans (hsame.symm.trans hr')
  have hd₂ := ((Annotating.agree_rootImage role root.label _ hd₁).2 _ _ hi).2
  obtain ⟨himage, rfl⟩ := Prod.mk.inj (Except.ok.inj (hi.symm.trans hi'))
  obtain ⟨hbody, rfl⟩ :=
    Prod.mk.inj (Except.ok.inj (hf.symm.trans ((hforest _ hd₂).1.symm.trans hf')))
  obtain ⟨name₁, source, style₁, image, body⟩ := component
  obtain ⟨name₂, source', style₂, image', body'⟩ := other
  cases himage
  cases hbody
  cases hname.trans hname'.symm
  cases hsource.trans hsource'.symm
  cases hstyle
  cases hstyle'
  exact ⟨style₂.text, congrArg (Component.mk name₁ source · image body) (styleOf_root hs hs')⟩

lemma Redrawn.renderAlike (h : Redrawn key roles root) {component other : Component}
    {memo memo' : RoleMemo} (hc : annotate rules roles root name = .ok (component, memo))
    (hc' : annotate rules roles (redraw key drawing root) name = .ok (other, memo')) :
    RenderAlike component other := by
  obtain ⟨text, rfl⟩ := h.component_eq drawing hc hc'
  refine ⟨fun _ _ => rfl, rfl, fun _ _ => rfl, fun htext files => ?_⟩
  obtain rfl : text = component.style.text := htext
  rfl

/-! ### Pictures without text -/

/-- Only layers that show text decide the typography at the top. -/
lemma firstTextStyle?_filter (layers : List Layer) :
    firstTextStyle? (layers.filter Layer.showsText) = firstTextStyle? layers := by
  induction layers with
  | nil => rfl
  | cons layer rest ih =>
    by_cases hshows : layer.showsText = true
    · rw [List.filter_cons_of_pos hshows, firstTextStyle?, firstTextStyle?, ih]
    · have hnone : layer.textStyle? = .ok none := by
        unfold Layer.textStyle?
        rw [if_pos (by simpa using hshows)]
        rfl
      rw [List.filter_cons_of_neg hshows, ih, firstTextStyle?, hnone]
      rfl

lemma filter_eq_nil_of_silent {layers : List Layer} (h : ∀ layer ∈ layers, layer.showsText = false) :
    layers.filter Layer.showsText = [] :=
  List.filter_eq_nil_iff.2 fun layer hmem => by rw [h layer hmem]; exact Bool.false_ne_true

variable {drawing}

mutual

lemma filter_redraw (t : LayerTree)
    (hafter : ∀ layer ∈ Tree.preorderAll drawing, layer.showsText = false)
    (hbefore : ∀ u ∈ t.subtrees, u.label.hasKey key = true →
      ∀ layer ∈ Tree.preorderAll u.children, layer.showsText = false) :
    (redraw key drawing t).preorder.filter Layer.showsText =
      t.preorder.filter Layer.showsText := by
  match t with
  | .node layer children =>
    rw [Tree.subtrees] at hbefore
    rw [redraw, Tree.preorder_node, Tree.preorder_node, List.filter_cons, List.filter_cons]
    by_cases hkey : layer.hasKey key = true
    · have hchildren : ∀ below ∈ Tree.preorderAll children, below.showsText = false :=
        hbefore _ List.mem_cons_self hkey
      rw [if_pos hkey, filter_eq_nil_of_silent hafter, filter_eq_nil_of_silent hchildren]
    · rw [if_neg hkey, filter_redrawAll children hafter fun u hu =>
        hbefore u (List.mem_cons_of_mem _ hu)]

lemma filter_redrawAll (ts : Forest Layer)
    (hafter : ∀ layer ∈ Tree.preorderAll drawing, layer.showsText = false)
    (hbefore : ∀ u ∈ Tree.subtreesAll ts, u.label.hasKey key = true →
      ∀ layer ∈ Tree.preorderAll u.children, layer.showsText = false) :
    (Tree.preorderAll (redrawAll key drawing ts)).filter Layer.showsText =
      (Tree.preorderAll ts).filter Layer.showsText := by
  match ts with
  | [] => rfl
  | t :: ts =>
    rw [Tree.subtreesAll] at hbefore
    rw [redrawAll, Tree.preorderAll_cons, Tree.preorderAll_cons, List.filter_append,
      List.filter_append,
      filter_redraw t hafter fun u hu => hbefore u (List.mem_append_left _ hu),
      filter_redrawAll ts hafter fun u hu => hbefore u (List.mem_append_right _ hu)]

end

/-- Exchanging children that show no text leaves the typography at the top. -/
lemma Redrawn.firstTextStyle?_eq (h : Redrawn key roles root)
    (hafter : ∀ layer ∈ Tree.preorderAll drawing, layer.showsText = false)
    (hbefore : ∀ u ∈ Tree.subtreesAll root.children, u.label.hasKey key = true →
      ∀ layer ∈ Tree.preorderAll u.children, layer.showsText = false) :
    firstTextStyle? (redraw key drawing root).preorder = firstTextStyle? root.preorder := by
  rw [← firstTextStyle?_filter, ← firstTextStyle?_filter root.preorder, h.redraw_eq drawing]
  obtain ⟨layer, children⟩ := root
  rw [Tree.preorder_node, Tree.preorder_node, List.filter_cons, List.filter_cons]
  have hbelow := filter_redrawAll children hafter hbefore
  rw [show Tree.label (.node layer children) = layer from rfl,
    show Tree.children (.node layer children) = children from rfl, hbelow]

end Artifacts

/-- What is drawn inside an asset reaches no file of a component but its style sheet, and that only
as the typography at the top: the component is the same when the exchanged children show no text,
and whenever the first text that shows is set in the same way. -/
theorem annotate_redraw {rules : Rules} {roles : RoleMemo} {root : LayerTree} {key : Key}
    (h : Redrawn key roles root) (drawing : Forest Layer) (name : Text) :
    ((∀ layer ∈ Tree.preorderAll drawing, layer.showsText = false) →
      (∀ t ∈ Tree.subtreesAll root.children, t.label.hasKey key = true →
        ∀ layer ∈ Tree.preorderAll t.children, layer.showsText = false) →
      annotate rules roles (redraw key drawing root) name = annotate rules roles root name) ∧
    (firstTextStyle? (redraw key drawing root).preorder = firstTextStyle? root.preorder →
      annotate rules roles (redraw key drawing root) name = annotate rules roles root name) ∧
    ∀ component other memo memo', annotate rules roles root name = .ok (component, memo) →
      annotate rules roles (redraw key drawing root) name = .ok (other, memo') →
      RenderAlike component other :=
  ⟨fun hafter hbefore => h.annotate_eq drawing (h.firstTextStyle?_eq hafter hbefore),
    h.annotate_eq drawing, fun _ _ _ _ hc hc' => h.renderAlike drawing hc hc'⟩

/-- A card with a frame that is exported as a picture; inside the frame is what is given. -/
def posterCard (drawing : Forest Layer) : LayerTree :=
  .node (plainLayer "1:1" "Card" "COMPONENT") [
    .node { plainLayer "1:2" "Poster" "FRAME" with
      exportSettings := [.record [("format", .text "PNG")]] } drawing]

/-- A line of text in letters of a size. -/
def posterText (size : Int) : LayerTree :=
  .node { plainLayer "1:3" "Sale" "TEXT" with
    characters := .text "Sale"
    typography := [(.text "fontSize", .int size)] } []

lemma redrawn_posterCard (drawing : Forest Layer)
    (hkey : ∀ layer ∈ Tree.preorderAll drawing, layer.hasKey (.text "1:2") = false) :
    Redrawn (.text "1:2") [] (posterCard drawing) where
  inside := rfl
  assets := by
    simp only [posterCard, Tree.children, Tree.preorderAll_cons, Tree.preorderAll_nil,
      List.append_nil, Tree.preorder_node, List.forall_mem_cons]
    exact ⟨fun _ => ⟨.png, rfl⟩, fun layer hmem h =>
      absurd ((hkey layer hmem).symm.trans h) Bool.false_ne_true⟩
  decided := nofun

theorem annotate_redraw_posterCard : ∃ component other memo memo',
    annotate .standard [] (posterCard [posterText 14]) "Card" = .ok (component, memo) ∧
    annotate .standard [] (redraw (.text "1:2") [posterText 20] (posterCard [posterText 14])) "Card" =
      .ok (other, memo') ∧ RenderAlike component other := by
  refine ⟨_, _, _, _, rfl, rfl, ?_⟩
  refine (annotate_redraw (redrawn_posterCard [posterText 14] ?_) [posterText 20] "Card").2.2 _ _ _ _
    rfl rfl
  decide

/-- The size of a text drawn inside a picture is the font size of the whole card. -/
theorem stylesheet_redraw_ne : ∃ component other memo memo',
    Redrawn (.text "1:2") [] (posterCard [posterText 14]) ∧
    annotate .standard [] (posterCard [posterText 14]) "Card" = .ok (component, memo) ∧
    annotate .standard [] (redraw (.text "1:2") [posterText 20] (posterCard [posterText 14])) "Card" =
      .ok (other, memo') ∧
    stylesheet [] other ≠ stylesheet [] component := by
  refine ⟨_, _, _, _, redrawn_posterCard [posterText 14] (by decide), rfl, rfl, fun h => ?_⟩
  replace h := congrArg Except.toOption h
  revert h
  decide +kernel

end Handoff
