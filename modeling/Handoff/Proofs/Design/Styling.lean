import Handoff.Design.Style
import Handoff.Proofs.Design.Measuring
import Handoff.Proofs.Design.Typed

/-!
The style of a layer whose fields have their types is found, and every number in it can be written.
-/

namespace Handoff.Design

open Value

/-! ### Layers with typed fields -/

/-- Four numbers of at most this size. -/
structure Padding.TypedWithin (bound : ℚ) (padding : Padding) : Prop where
  top : padding.top.IsNumber bound
  right : padding.right.IsNumber bound
  bottom : padding.bottom.IsNumber bound
  left : padding.left.IsNumber bound

/-- The fields of an automatic layout have their types, with numbers of at most this size. -/
structure AutoLayout.TypedWithin (bound : ℚ) (layout : AutoLayout) : Prop where
  itemSpacing : layout.itemSpacing.IsLengthWithin bound
  padding : ∀ padding, layout.padding = some padding → padding.TypedWithin bound
  primaryAlign : layout.primaryAlign.IsTextOrNull
  counterAlign : layout.counterAlign.IsTextOrNull
  grow : layout.grow.IsLengthWithin bound

/-- The entries of a typography that are used, with numbers of at most this size. -/
structure Typography.TypedWithin (bound : ℚ) (entries : Typography) : Prop where
  sizes : ∀ name ∈ (["fontSize", "fontWeight", "lineHeight", "lineHeightPx", "letterSpacing"] : List Text),
    (entries.get name).IsLengthWithin bound
  textAlign : (entries.get "textAlignHorizontal").IsTextOrNull

/-- The fields of a layer have the types that the file format gives them, and the numbers among them are
finite and of at most this size; channels and opacities are at most 1. -/
structure Layer.TypedWithin (bound : ℚ) (layer : Layer) : Prop where
  id : layer.id.IsSomeText
  name : layer.name.IsSomeText
  typeName : layer.typeName.IsSomeText
  width : layer.width.IsLengthWithin bound
  height : layer.height.IsLengthWithin bound
  fills : ∀ paint ∈ layer.fills, paint.color.IsColor ∧ paint.opacity.IsNumber 1
  layout : ∀ layout, layer.layout = some layout → layout.TypedWithin bound
  exportSettings : ∀ setting ∈ layer.exportSettings, IsExportSetting setting
  characters : layer.characters.IsSomeText
  typography : layer.typography.TypedWithin bound
  cornerRadius : layer.cornerRadius.IsLengthWithin bound
  cornerRadii : ∀ radii, layer.cornerRadii = some radii → ∀ radius ∈ radii, radius.IsLengthWithin bound
  backgroundColor : layer.backgroundColor.IsColor

/-- The fields of a layer have their types, and its numbers are within the range of doubles. -/
abbrev Layer.WellTyped (layer : Layer) : Prop := layer.TypedWithin Numeric.Binary64.largest

/-- A layer without any further fields but a text. -/
lemma Layer.WellTyped.of_plain (id name type characters : Text) :
    { plainLayer id name type with characters := .text characters }.WellTyped where
  id := ⟨id, rfl⟩
  name := ⟨name, rfl⟩
  typeName := ⟨type, rfl⟩
  width := Or.inl rfl
  height := Or.inl rfl
  fills := nofun
  layout := nofun
  exportSettings := nofun
  characters := ⟨characters, rfl⟩
  typography := ⟨fun _ _ => Or.inl rfl, Or.inl rfl⟩
  cornerRadius := Or.inl rfl
  cornerRadii := nofun
  backgroundColor := Or.inl rfl

lemma Layer.TypedWithin.exportTyped {bound : ℚ} {layer : Layer} (h : layer.TypedWithin bound) :
    layer.ExportTyped where
  id := h.id
  name := Or.inr h.name
  typeName := h.typeName
  exportSettings := h.exportSettings

/-! ### Styles that can be written -/

/-- The sizes of a typography are numbers of at most this size, or null. -/
structure TextStyle.Measurable (bound : ℚ) (text : TextStyle) : Prop where
  fontSize : text.fontSize.IsLengthWithin bound
  fontWeight : text.fontWeight.IsLengthWithin bound
  lineHeight : text.lineHeight.IsLengthWithin bound
  letterSpacing : text.letterSpacing.IsLengthWithin bound

/-- The numbers of a style are of at most this size, or null. -/
structure Style.Measurable (bound : ℚ) (style : Style) : Prop where
  gap : style.gap.IsLengthWithin bound
  padding : ∀ padding, style.padding = some padding → padding.TypedWithin bound
  borderRadius : style.borderRadius.IsLengthWithin bound
  text : ∀ text, style.text = some text → text.Measurable bound

section

variable {bound : ℚ} {layer : Layer} {layout : AutoLayout} {value size grow : Value}

lemma entryOf_eq_ok {α : Type} (h : value.IsTextOrNull) (table : List (Text × α)) :
    ∃ entry, value.entryOf? table = .ok entry := by
  rcases h with rfl | ⟨s, rfl⟩
  · exact ⟨none, rfl⟩
  · exact ⟨table.lookup s, rfl⟩

lemma growsAlong_eq_ok (h : grow.IsLengthWithin bound) : ∃ b, growsAlong grow = .ok b := by
  have hnumber : ∃ n, (grow.orElse (.int 0)).number = .ok n := by
    unfold Value.orElse
    split
    · rename_i htruthy
      rcases h with rfl | ⟨n, hn, -⟩
      · cases htruthy
      · exact ⟨n, hn⟩
    · exact ⟨.int 0, rfl⟩
  obtain ⟨n, hn⟩ := hnumber
  exact ⟨n.intLe 1, bind_eq_ok.2 ⟨n, hn, rfl⟩⟩

lemma extent_eq_ok (sizing : Value) (hsize : size.IsLengthWithin bound) (hgrow : grow.IsLengthWithin bound)
    (alongAxis : Bool) :
    ∃ result, extent size sizing grow alongAxis = .ok result := by
  obtain ⟨b, hb⟩ := growsAlong_eq_ok hgrow
  unfold extent
  split
  · split
    · rw [hb, ok_bind]
      cases b <;> exact ⟨_, rfl⟩
    · exact ⟨_, rfl⟩
  split
  · exact ⟨_, rfl⟩
  split
  · exact ⟨_, rfl⟩
  · rename_i hne
    obtain ⟨n, hn⟩ := hsize.round (by simpa using hne)
    rw [hn]
    exact ⟨_, rfl⟩

lemma flexBoxOf_eq_ok (h : layout.TypedWithin bound) (axis : Axis) (isRoot : Bool) :
    ∃ flexBox, flexBoxOf layout axis isRoot = .ok flexBox := by
  obtain ⟨p, hp⟩ := entryOf_eq_ok h.primaryAlign primaryAlignments
  obtain ⟨c, hc⟩ := entryOf_eq_ok h.counterAlign counterAlignments
  exact ⟨_, bind_eq_ok.2 ⟨p, hp, bind_eq_ok.2 ⟨c, hc, rfl⟩⟩⟩

lemma solidFill_eq_ok (h : ∀ paint ∈ layer.fills, paint.color.IsColor ∧ paint.opacity.IsNumber 1) :
    ∃ color, layer.solidFill? = .ok color := by
  unfold Layer.solidFill? solidFillColor?
  split
  · rename_i paint hpaint
    obtain ⟨hcolor, hopacity⟩ := h paint (List.mem_of_find?_eq_some hpaint)
    exact cssColor_eq_ok hcolor hopacity
  · exact ⟨none, rfl⟩

namespace Layer.TypedWithin

lemma flexBox (h : layer.TypedWithin bound) (isRoot : Bool) : ∃ flexBox, flexBox? layer isRoot = .ok flexBox := by
  unfold flexBox?
  split
  · rename_i layout axis hlayout _
    obtain ⟨flexBox, hf⟩ := flexBoxOf_eq_ok (h.layout layout hlayout) axis isRoot
    rw [hf]
    exact ⟨_, rfl⟩
  · cases isRoot <;> exact ⟨_, rfl⟩

lemma solidFill (h : layer.TypedWithin bound) : ∃ color, layer.solidFill? = .ok color :=
  solidFill_eq_ok h.fills

lemma background (h : layer.TypedWithin bound) : ∃ color, background? layer = .ok color := by
  obtain ⟨fill, hfill⟩ := h.solidFill
  have hfull : (Value.double (.finite 1)).IsNumber 1 := ⟨_, rfl, 1, rfl, by norm_num⟩
  obtain ⟨own, hown⟩ := cssColor_eq_ok h.backgroundColor hfull
  unfold background?
  rw [hfill, ok_bind]
  cases fill with
  | some color => exact ⟨_, rfl⟩
  | none => exact ⟨own, hown⟩

lemma textStyle (h : layer.TypedWithin bound) :
    ∃ style, layer.textStyle? = .ok style ∧ ∀ text, style = some text → text.Measurable bound := by
  obtain ⟨align, halign⟩ := entryOf_eq_ok h.typography.textAlign textAlignments
  obtain ⟨color, hcolor⟩ := h.solidFill
  unfold Layer.textStyle?
  split
  · exact ⟨none, rfl, nofun⟩
  simp only [halign, hcolor, ok_bind]
  refine ⟨_, rfl, ?_⟩
  rintro text ⟨⟩
  have hsizes := h.typography.sizes
  refine ⟨hsizes _ (by decide), hsizes _ (by decide), ?_, hsizes _ (by decide)⟩
  have hpx := hsizes "lineHeightPx" (by decide)
  simp only [Typography.get] at hpx
  cases hl : layer.typography.get? "lineHeightPx" with
  | none => exact hsizes _ (by decide)
  | some value =>
    rw [hl] at hpx
    exact hpx

lemma radius (h : layer.TypedWithin bound) : layer.radius.IsLengthWithin bound := by
  unfold Layer.radius
  split
  · exact h.cornerRadius
  split
  · rename_i first rest hradii
    exact h.cornerRadii _ hradii first List.mem_cons_self
  · exact Or.inl rfl

lemma layoutField (h : layer.TypedWithin bound) {field : AutoLayout → Value}
    (hfield : ∀ layout : AutoLayout, layout.TypedWithin bound → (field layout).IsLengthWithin bound) :
    ((layer.layout.map field).getD .null).IsLengthWithin bound := by
  cases hlayout : layer.layout with
  | none => exact Or.inl rfl
  | some layout => exact hfield layout (h.layout layout hlayout)

end Layer.TypedWithin

/-- A typed layer has a style at every place, and its numbers can be written. -/
theorem styleOf_eq_ok (h : layer.TypedWithin bound) {place : Placement}
    (hroot : ∀ text, place.rootText = some text → text.Measurable bound) :
    ∃ style, styleOf layer place = .ok style ∧ style.Measurable bound := by
  obtain ⟨flexBox, hflex⟩ := h.flexBox place.isRoot
  have hgrow := h.layoutField fun _ hl => hl.grow
  obtain ⟨⟨width, growsWide⟩, hwidth⟩ := extent_eq_ok
    ((layer.layout.map AutoLayout.sizingHorizontal).getD .null) h.width hgrow
    (place.parentAxis = some .row)
  obtain ⟨⟨height, growsHigh⟩, hheight⟩ := extent_eq_ok
    ((layer.layout.map AutoLayout.sizingVertical).getD .null) h.height hgrow
    (place.parentAxis = some .column)
  obtain ⟨background, hbackground⟩ := h.background
  obtain ⟨text, htext, hmeasurable⟩ := h.textStyle
  have hgap := h.layoutField fun _ hl => hl.itemSpacing
  have hpadding : ∀ padding, layer.layout.bind AutoLayout.padding = some padding →
      padding.TypedWithin bound := by
    intro padding hpadding
    obtain ⟨layout, hlayout, hp⟩ := Option.bind_eq_some_iff.1 hpadding
    exact (h.layout layout hlayout).padding padding hp
  have hshown : ∀ shown, (if place.isRoot then text.or place.rootText else text) = some shown →
      shown.Measurable bound := by
    intro shown hshown
    split at hshown
    · rcases Option.or_eq_some_iff.1 hshown with ht | ⟨-, ht⟩
      · exact hmeasurable shown ht
      · exact hroot shown ht
    · exact hmeasurable shown hshown
  unfold styleOf
  simp only [hflex, hwidth, hheight, htext, ok_bind]
  split
  · rw [hbackground, ok_bind]
    exact ⟨_, rfl, hgap, hpadding, h.radius, hshown⟩
  · exact ⟨_, rfl, hgap, hpadding, Or.inl rfl, hshown⟩

/-- The first typography among typed layers can be written. -/
lemma firstTextStyle_eq_ok {layers : List Layer} (h : ∀ layer ∈ layers, layer.TypedWithin bound) :
    ∃ style, firstTextStyle? layers = .ok style ∧ ∀ text, style = some text → text.Measurable bound := by
  induction layers with
  | nil => exact ⟨none, rfl, nofun⟩
  | cons layer rest ih =>
    obtain ⟨hlayer, hrest⟩ := List.forall_mem_cons.1 h
    obtain ⟨style, hstyle, hmeasurable⟩ := hlayer.textStyle
    rw [firstTextStyle?, hstyle, ok_bind]
    cases style with
    | none => exact ih hrest
    | some text => exact ⟨some text, rfl, hmeasurable⟩

end

end Handoff.Design
