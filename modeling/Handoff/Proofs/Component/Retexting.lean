import Handoff.Component.Annotation
import Handoff.Proofs.Data.Alike

/-!
Components that differ in what their texts say.

What a text says decides nothing: neither the role of a layer nor its class, the number of a text or
any style. So the walks over two components whose text layers say different things, but all say
something, give the same annotations but for the texts themselves.
-/

namespace Handoff

open Design Naming

namespace Design

/-! ### Layers -/

/-- The layers are the same, or both are the same layer of type text with different texts, neither of
them empty. -/
inductive Layer.Retexted : Layer → Layer → Prop
  | same (layer : Layer) : Retexted layer layer
  | retext {layer : Layer} {s s' : Text} (htype : layer.isOfTextType = true)
    (hs : layer.characters = .text s) (hne : s.isEmpty = false) (hne' : s'.isEmpty = false) :
    Retexted layer { layer with characters := .text s' }

/-- The texts of two layers are the same value, or both are texts. -/
inductive SameText : Value → Value → Prop
  | same (value : Value) : SameText value value
  | texts (s s' : Text) : SameText (.text s) (.text s')

/-- A typography without what is written in it. -/
def TextStyle.mute (style : TextStyle) : TextStyle := { style with characters := .null }

/-- A style without what is written in it. -/
def Style.mute (style : Style) : Style := { style with text := style.text.map TextStyle.mute }

variable {layer other : Layer}

lemma Layer.Retexted.characters (h : layer.Retexted other) :
    SameText layer.characters other.characters := by
  cases h with
  | same => exact .same _
  | retext htype hs hne hne' =>
    rw [hs]
    exact .texts _ _

/-- What a layer is apart from its text. -/
lemma Layer.Retexted.apart (h : layer.Retexted other) :
    other = { layer with characters := other.characters } := by
  cases h <;> rfl

lemma Layer.Retexted.showsText (h : layer.Retexted other) : other.showsText = layer.showsText := by
  cases h with
  | same => rfl
  | retext htype hs hne hne' =>
    simp only [Layer.showsText, hs, Value.truthy, hne, hne']
    rfl

lemma Layer.Retexted.exportFormat (h : layer.Retexted other) :
    other.exportFormat? = layer.exportFormat? := by
  cases h <;> rfl

/-- What a layer says decides nothing about its role. -/
lemma roleOf_retexted (h : layer.Retexted other) {children others : Forest Layer}
    (hempty : others.isEmpty = children.isEmpty) :
    roleOf (.node other others) = roleOf (.node layer children) := by
  have hshows := h.showsText
  have htype : other.typeName = layer.typeName := by rw [h.apart]
  simp only [roleOf, Tree.label, Tree.children, h.exportFormat, Layer.isOfTextType, htype, hshows,
    hempty]
  rfl

/-! ### Styles -/

/-- The typography of a layer is decided apart from what is written. -/
lemma textStyle_retexted (h : layer.Retexted other) :
    SameOutcome (fun style style' => style'.map TextStyle.mute = style.map TextStyle.mute)
      layer.textStyle? other.textStyle? := by
  unfold Layer.textStyle?
  rw [h.showsText]
  by_cases hshows : (!layer.showsText) = true
  · rw [if_pos hshows, if_pos hshows]
    exact .ok rfl
  · rw [if_neg hshows, if_neg hshows, h.apart]
    refine SameOutcome.bind_eq rfl fun align => SameOutcome.bind_eq rfl fun color => .ok ?_
    rfl

lemma firstTextStyle_retexted {layers others : List Layer}
    (h : List.Forall₂ Layer.Retexted layers others) :
    SameOutcome (fun style style' => style'.map TextStyle.mute = style.map TextStyle.mute)
      (firstTextStyle? layers) (firstTextStyle? others) := by
  induction h with
  | nil => exact .ok rfl
  | cons hfirst _ ih =>
    rw [firstTextStyle?, firstTextStyle?]
    refine (textStyle_retexted hfirst).bind fun style style' hstyle => ?_
    cases style <;> cases style' <;> simp only [Option.map_some, Option.map_none, reduceCtorEq] at hstyle
    · exact ih
    · exact .ok hstyle

lemma mute_or {own own' inner inner' : Option TextStyle}
    (h : own'.map TextStyle.mute = own.map TextStyle.mute)
    (h' : inner'.map TextStyle.mute = inner.map TextStyle.mute) :
    (own'.or inner').map TextStyle.mute = (own.or inner).map TextStyle.mute := by
  cases own <;> cases own' <;> simp_all

/-- What of the style of a layer is not its typography. -/
def boxStyleOf (layer : Layer) (place : Placement) : Except Fault Style := do
  let flexBox ← flexBox? layer place.isRoot
  let sizing (of : AutoLayout → Value) : Value := (layer.layout.map of).getD .null
  let grow := sizing AutoLayout.grow
  let (width, growsWide) ← extent layer.width (sizing AutoLayout.sizingHorizontal) grow
    (place.parentAxis = some .row)
  let (height, growsHigh) ← extent layer.height (sizing AutoLayout.sizingVertical) grow
    (place.parentAxis = some .column)
  let boxed := !place.isAsset && !layer.isOfTextType
  let backgroundColor ← if boxed then background? layer else pure none
  return {
    flexBox
    gap := sizing AutoLayout.itemSpacing
    padding := layer.layout.bind AutoLayout.padding
    width
    height
    flexGrow := growsWide || growsHigh
    backgroundColor
    borderRadius := if boxed then layer.radius else .null
    text := none }

lemma styleOf_eq (layer : Layer) (place : Placement) : styleOf layer place = (do
    let style ← boxStyleOf layer place
    let own ← layer.textStyle?
    return { style with text := if place.isRoot then own.or place.rootText else own }) := by
  unfold styleOf boxStyleOf
  simp only [bind_assoc]
  refine bind_congr fun flexBox => bind_congr fun width => bind_congr fun height => ?_
  split <;> simp only [bind_assoc, pure_bind]

/-- The style of a layer is decided apart from what is written in it or at its place. -/
lemma styleOf_retexted (h : layer.Retexted other) (place : Placement) {rootText : Option TextStyle}
    (hroot : rootText.map TextStyle.mute = place.rootText.map TextStyle.mute) :
    SameOutcome (fun style style' => style'.mute = style.mute)
      (styleOf layer place) (styleOf other { place with rootText }) := by
  have htext := textStyle_retexted h
  have hbox : boxStyleOf other { place with rootText } = boxStyleOf layer place := by
    rw [h.apart]
    rfl
  rw [styleOf_eq, styleOf_eq]
  refine SameOutcome.bind_eq hbox fun style => htext.bind fun own own' hown => .ok ?_
  simp only [Style.mute, Style.mk.injEq, true_and]
  split
  · exact mute_or hown hroot
  · exact hown

end Design

/-! ### Annotations -/

/-- The elements stand for layers that differ in their texts at most, and are alike in all else. -/
structure Element.Retexted (e e' : Element) : Prop where
  layer : e.layer.Retexted e'.layer
  key : e'.key = e.key
  role : e'.role = e.role
  elementClass : e'.elementClass = e.elementClass
  style : e'.style.mute = e.style.mute
  slot : e'.slot = e.slot

/-- The components differ in what their texts say at most. -/
structure Component.Retexted (c c' : Component) : Prop where
  name : c'.name = c.name
  source : c.source.Retexted c'.source
  style : c'.style.mute = c.style.mute
  rootImage : Option.Rel Element.Retexted c.rootImage c'.rootImage
  body : Tree.RelatedAll Element.Retexted c.body c'.body

namespace Annotating

variable {α β γ δ : Type} {rules : Rules} {axis : Option Axis}

/-- From every draft the walks fail with the same fault, or give related values and the same draft. -/
def InStep (r : α → β → Prop) (x : Annotating α) (y : Annotating β) : Prop :=
  ∀ d, SameOutcome (fun p q => r p.1 q.1 ∧ q.2 = p.2) (x.run d) (y.run d)

variable {r : α → β → Prop} {q : γ → δ → Prop} {layer other : Layer}

lemma InStep.bind {x : Annotating α} {y : Annotating β} {f : α → Annotating γ} {g : β → Annotating δ}
    (h : InStep r x y) (hn : ∀ a b, r a b → InStep q (f a) (g b)) :
    InStep q (x >>= f) (y >>= g) := by
  intro d
  rw [StateT.run_bind, StateT.run_bind]
  refine (h d).bind ?_
  rintro ⟨a, d'⟩ ⟨b, _⟩ ⟨hab, rfl⟩
  exact hn a b hab _

lemma InStep.pure {a : α} {b : β} (h : r a b) : InStep r (Pure.pure a) (Pure.pure b) :=
  fun _ => .ok ⟨h, rfl⟩

lemma InStep.liftM {x : Except Fault α} {y : Except Fault β} (h : SameOutcome r x y) :
    InStep r (liftM x : Annotating α) (liftM y) := by
  intro d
  cases h with
  | error fault => exact .error fault
  | ok hab => exact .ok ⟨hab, rfl⟩

/-- Both walks do the same. -/
lemma InStep.of_eq {x y : Annotating α} (h : y = x) : InStep (fun a b => b = a) x y := by
  subst h
  intro d
  refine (SameOutcome.refl (y.run d)).imp ?_
  rintro p _ rfl
  exact ⟨rfl, rfl⟩

lemma InStep.bind_eq {x y : Annotating γ} {f : γ → Annotating α} {g : γ → Annotating β} (h : y = x)
    (hn : ∀ a, InStep r (f a) (g a)) : InStep r (x >>= f) (y >>= g) := by
  refine (InStep.of_eq h).bind ?_
  rintro _ a rfl
  exact hn a

lemma role_retexted (h : layer.Retexted other) {children others : Forest Layer}
    (hempty : others.isEmpty = children.isEmpty) :
    role (.node other others) = role (.node layer children) := by
  have hid : other.id = layer.id := by rw [h.apart]
  unfold role RoleMemo.role
  rw [roleOf_retexted h hempty]
  simp only [Tree.label, hid]

lemma element_retexted (h : layer.Retexted other) (role : Role) :
    InStep Element.Retexted (element rules axis role layer) (element rules axis role other) := by
  have hname : other.name = layer.name := by rw [h.apart]
  have hid : other.id = layer.id := by rw [h.apart]
  unfold element
  rw [hname, hid]
  refine InStep.bind_eq rfl fun cls => InStep.bind_eq rfl fun slot => ?_
  refine (InStep.liftM (styleOf_retexted h (.child axis role.isAsset) rfl)).bind fun style style' hs => ?_
  exact InStep.bind_eq rfl fun key => .pure ⟨h, rfl, rfl, rfl, hs, rfl⟩

lemma rootImage_retexted (h : layer.Retexted other) (role : Role) :
    InStep (Option.Rel Element.Retexted) (rootImage rules role layer) (rootImage rules role other) := by
  have hid : other.id = layer.id := by rw [h.apart]
  unfold rootImage
  rw [hid]
  split
  · exact InStep.bind_eq rfl fun cls => InStep.bind_eq rfl fun key =>
      .pure (.some ⟨h, rfl, rfl, rfl, rfl, rfl⟩)
  · exact .pure .none

mutual

/-- The walks over two trees that differ in what their texts say are in step. -/
theorem tree_retexted (axis : Option Axis) (t u : LayerTree) (h : Tree.Related Layer.Retexted t u) :
    InStep (Option.Rel (Tree.Related Element.Retexted)) (tree rules axis t) (tree rules axis u) := by
  match t, u with
  | .node layer children, .node other others =>
    rw [Tree.Related] at h
    obtain ⟨hlayer, hchildren⟩ := h
    have haxis : other.axis? = layer.axis? := by rw [hlayer.apart]; rfl
    rw [tree, tree]
    refine InStep.bind_eq (role_retexted hlayer hchildren.isEmpty) fun role => ?_
    by_cases hdecoration : role = .decoration
    · simp only [if_pos hdecoration]
      exact .pure .none
    · simp only [if_neg hdecoration]
      refine (element_retexted hlayer role).bind fun e e' he => ?_
      by_cases hcontainer : role = .container
      · simp only [if_pos hcontainer, haxis]
        exact (forest_retexted layer.axis? children others hchildren).bind fun ts us hbelow =>
          .pure (.some (by rw [Tree.Related]; exact ⟨he, hbelow⟩))
      · simp only [if_neg hcontainer]
        exact .pure (.some (by simp only [Tree.Related, Tree.RelatedAll]; exact ⟨he, trivial⟩))

/-- The walks over trees side by side that differ in what their texts say are in step. -/
theorem forest_retexted (axis : Option Axis) (ts us : Forest Layer)
    (h : Tree.RelatedAll Layer.Retexted ts us) :
    InStep (Tree.RelatedAll Element.Retexted) (forest rules axis ts) (forest rules axis us) := by
  match ts, us with
  | [], [] =>
    rw [forest]
    exact .pure (by simp [Tree.RelatedAll])
  | [], u :: us => simp [Tree.RelatedAll] at h
  | t :: ts, [] => simp [Tree.RelatedAll] at h
  | t :: ts, u :: us =>
    rw [Tree.RelatedAll] at h
    rw [forest, forest]
    refine (tree_retexted axis t u h.1).bind fun first first' hfirst => ?_
    cases hfirst with
    | none => exact forest_retexted axis ts us h.2
    | some hfirst =>
      exact (forest_retexted axis ts us h.2).bind fun rest rest' hrest =>
        .pure (by rw [Tree.RelatedAll]; exact ⟨hfirst, hrest⟩)

end

end Annotating

/-- Trees that differ in what their texts say are annotated alike: with the same fault, or with the
same roles decided and components that differ in what their texts say. -/
theorem annotate_retexted (rules : Rules) (roles : RoleMemo) (name : Text) {root root' : LayerTree}
    (h : Tree.Related Layer.Retexted root root') :
    SameOutcome (fun p q => p.1.Retexted q.1 ∧ q.2 = p.2)
      (annotate rules roles root name) (annotate rules roles root' name) := by
  have hlayers := Tree.Related.preorder root root' h
  obtain ⟨layer, children⟩ := root
  obtain ⟨other, others⟩ := root'
  rw [Tree.Related] at h
  obtain ⟨hlayer, hchildren⟩ := h
  have haxis : other.axis? = layer.axis? := by rw [hlayer.apart]; rfl
  have hcomponent : Annotating.InStep Component.Retexted
      (Annotating.component rules (.node layer children) name)
      (Annotating.component rules (.node other others) name) := by
    unfold Annotating.component
    simp only [Tree.label, Tree.children, haxis]
    refine Annotating.InStep.bind_eq (Annotating.role_retexted hlayer hchildren.isEmpty) fun role => ?_
    refine (Annotating.rootImage_retexted hlayer role).bind fun image image' himage => ?_
    refine (Annotating.forest_retexted _ children others hchildren).bind fun body body' hbody => ?_
    refine (Annotating.InStep.liftM (firstTextStyle_retexted hlayers)).bind fun text text' htext => ?_
    refine (Annotating.InStep.liftM (styleOf_retexted hlayer (.root text) htext)).bind ?_
    exact fun style style' hstyle => .pure ⟨rfl, hlayer, hstyle, himage, hbody⟩
  unfold annotate
  refine (hcomponent ⟨roles, .empty, 0⟩).bind ?_
  rintro ⟨c, d⟩ ⟨c', _⟩ ⟨hc, rfl⟩
  exact .ok ⟨hc, rfl⟩

end Handoff
