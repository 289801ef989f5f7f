import Handoff.Render.Stylesheet
import Handoff.Proofs.Data.Table
import Handoff.Proofs.World.Running

/-!
What a rule declares: each field of a style under a property of its own, at most once, and nothing for a
field that is missing.

So the value of a property can be read off a rule, and it is that of its field.
-/

namespace Handoff.Render

open Asset Design

/-! ### Properties -/

/-- The properties that rules declare. -/
inductive StyleProperty where
  | display
  | direction
  | align
  | justify
  | gap
  | padding
  | flex
  | width
  | height
  | background
  | radius
  | fontFamily
  | fontSize
  | fontWeight
  | lineHeight
  | letterSpacing
  | color
  | textAlign
  | shrink
deriving DecidableEq

namespace StyleProperty

/-- The name of a property. -/
def name : StyleProperty → Text
  | display => "display"
  | direction => "flex-direction"
  | align => "align-items"
  | justify => "justify-content"
  | gap => "gap"
  | padding => "padding"
  | flex => "flex"
  | width => "width"
  | height => "height"
  | background => "background-color"
  | radius => "border-radius"
  | fontFamily => "font-family"
  | fontSize => "font-size"
  | fontWeight => "font-weight"
  | lineHeight => "line-height"
  | letterSpacing => "letter-spacing"
  | color => "color"
  | textAlign => "text-align"
  | shrink => "flex-shrink"

/-- The properties of typography. -/
def typographic : List StyleProperty :=
  [fontFamily, fontSize, fontWeight, lineHeight, letterSpacing, color, textAlign]

/-- The properties of styles, in the order of a rule. -/
def ofStyle : List StyleProperty :=
  [display, direction, align, justify, gap, padding, flex, width, height, background, radius] ++ typographic

/-- All properties, in the order of a rule. -/
def all : List StyleProperty := ofStyle ++ [shrink]

/-- The property of the extent along an axis. -/
def extent : Axis → StyleProperty
  | .row => width
  | .column => height

lemma mem_all (p : StyleProperty) : p ∈ all := by cases p <;> decide

lemma nodup_names : (all.map name).Nodup := by decide

lemma name_injective : Function.Injective name := fun p q h =>
  List.inj_on_of_nodup_map nodup_names (mem_all p) (mem_all q) h

end StyleProperty

/-! ### Rules as tables -/

/-- The declarations of a rule as a table of values by property. -/
def Rule.entries (rule : Rule) : Table Text Text := rule.declarations.map fun d => (d.property, d.value)

/-- The value that a rule declares for a property. -/
def Rule.value? (rule : Rule) (p : StyleProperty) : Option Text := rule.entries.lookup p.name

/-- The properties of a rule are distinct. -/
def Rule.DeclaresOnce (rule : Rule) : Prop := (rule.declarations.map Declaration.property).Nodup

section

variable {rule : Rule} {property value : Text}

lemma Rule.mem_entries : (property, value) ∈ rule.entries ↔ ⟨property, value⟩ ∈ rule.declarations := by
  rw [entries, List.mem_map]
  constructor
  · rintro ⟨d, hd, heq⟩
    cases heq
    exact hd
  · exact fun h => ⟨_, h, rfl⟩

lemma Rule.DeclaresOnce.value?_eq_some (h : rule.DeclaresOnce) {p : StyleProperty} :
    rule.value? p = some value ↔ ⟨p.name, value⟩ ∈ rule.declarations := by
  rw [← Rule.mem_entries]
  constructor
  · intro hvalue
    obtain ⟨before, after, hsplit, -⟩ := List.lookup_eq_some_iff.1 hvalue
    simp [hsplit]
  · have hkeyed : Table.Keyed rule.entries := by
      rw [Table.Keyed, Rule.entries, List.map_map]
      exact h
    exact Table.lookup_of_mem hkeyed

end

/-- The rule declares these values, each property once and nothing else. -/
structure Rule.States (rule : Rule) (told : StyleProperty → Text → Prop) : Prop where
  once : rule.DeclaresOnce
  declared : ∀ d ∈ rule.declarations, ∃ p v, d = ⟨p.name, v⟩ ∧ told p v
  value : ∀ p v, rule.value? p = some v ↔ told p v

lemma Rule.States.mem {rule : Rule} {told : StyleProperty → Text → Prop} {p : StyleProperty} {s : Text}
    (h : rule.States told) (hs : told p s) : ⟨p.name, s⟩ ∈ rule.declarations :=
  h.once.value?_eq_some.1 ((h.value p s).2 hs)

/-! ### What is declared -/

/-- What a typography declares: the fields that it has. -/
inductive TextSays (text : TextStyle) : StyleProperty → Text → Prop
  | fontFamily (h : text.fontFamily.truthy = true) :
      TextSays text .fontFamily ("'" ++ text.fontFamily.display ++ "', sans-serif")
  | fontSize {s : Text} (h : pixels text.fontSize = .ok s) : TextSays text .fontSize s
  | fontWeight {s : Text} (h : measure text.fontWeight = .ok s) : TextSays text .fontWeight s
  | lineHeight {s : Text} (h : pixels text.lineHeight = .ok s) : TextSays text .lineHeight s
  | letterSpacing {s : Text} (h : pixels text.letterSpacing = .ok s) : TextSays text .letterSpacing s
  | color {s : Text} (h : text.color = some s) : TextSays text .color s
  | textAlign {s : Text} (h : text.textAlign = some s) : TextSays text .textAlign s

/-- What a style declares: the fields that it has. -/
inductive Says (style : Style) : StyleProperty → Text → Prop
  | display {flex : FlexBox} (h : style.flexBox = some flex) : Says style .display flex.display.name
  | direction {flex : FlexBox} (h : style.flexBox = some flex) : Says style .direction flex.direction.name
  | align {flex : FlexBox} (h : style.flexBox = some flex) : Says style .align (alignmentWord flex.align)
  | justify {flex : FlexBox} (h : style.flexBox = some flex) :
      Says style .justify (alignmentWord flex.justify)
  | gap {s : Text} (h : pixels style.gap = .ok s) : Says style .gap s
  | padding {p : Padding} {top right bottom left : Text} (h : style.padding = some p)
      (htop : pixels p.top = .ok top) (hright : pixels p.right = .ok right)
      (hbottom : pixels p.bottom = .ok bottom) (hleft : pixels p.left = .ok left) :
      Says style .padding (top ++ " " ++ right ++ " " ++ bottom ++ " " ++ left)
  | flex (h : style.flexGrow = true) : Says style .flex "1"
  | width {extent : Extent} (h : style.width = some extent) : Says style .width extent.text
  | height {extent : Extent} (h : style.height = some extent) : Says style .height extent.text
  | background {s : Text} (h : style.backgroundColor = some s) : Says style .background s
  | radius {s : Text} (h : pixels style.borderRadius = .ok s) : Says style .radius s
  | text {t : TextStyle} {p : StyleProperty} {s : Text} (h : style.text = some t) (hs : TextSays t p s) :
      Says style p s

/-- What the rule of an element declares: its style, and that an exported picture does not shrink. -/
inductive ElementSays (files : FileMap) (e : Element) : StyleProperty → Text → Prop
  | own {p : StyleProperty} {s : Text} (h : Says e.style p s) : ElementSays files e p s
  | shrink (hasset : e.isAsset = true) (hfile : (files.file? e.key).isSome = true) :
      ElementSays files e .shrink "0"

/-! ### Lists of declarations -/

/-- The declarations are of some of the properties, in this order and each once, and give the values that are
said. -/
structure Lists (properties : List StyleProperty) (told : StyleProperty → Text → Prop)
    (ds : List Declaration) : Prop where
  mem : ∀ d, d ∈ ds ↔ ∃ p v, d = ⟨p.name, v⟩ ∧ told p v
  among : (ds.map Declaration.property).Sublist (properties.map StyleProperty.name)

section

variable {properties others : List StyleProperty} {told told' : StyleProperty → Text → Prop}
  {ds es : List Declaration}

namespace Lists

lemma nil (properties : List StyleProperty) (h : ∀ p v, ¬ told p v) : Lists properties told [] where
  mem _ := iff_of_false List.not_mem_nil fun ⟨p, v, _, hv⟩ => h p v hv
  among := List.nil_sublist _

lemma single (p : StyleProperty) (value : Text) :
    Lists [p] (fun q v => q = p ∧ v = value) [⟨p.name, value⟩] where
  mem d := by
    rw [List.mem_singleton]
    constructor
    · rintro rfl
      exact ⟨p, value, rfl, rfl, rfl⟩
    · rintro ⟨q, v, rfl, rfl, rfl⟩
      rfl
  among := List.Sublist.refl _

lemma append (h : Lists properties told ds) (h' : Lists others told' es) :
    Lists (properties ++ others) (fun p v => told p v ∨ told' p v) (ds ++ es) where
  mem d := by
    simp only [List.mem_append, h.mem, h'.mem, and_or_left, exists_or]
  among := by
    rw [List.map_append, List.map_append]
    exact h.among.append h'.among

lemma congr (h : Lists properties told ds) (hs : ∀ p v, told p v ↔ told' p v) :
    Lists properties told' ds where
  mem d := by simp only [h.mem, hs]
  among := h.among

/-- A rule with such declarations states what they say. -/
lemma states {rule : Rule} (h : Lists properties told rule.declarations)
    (hnodup : (properties.map StyleProperty.name).Nodup) : rule.States told where
  once := hnodup.sublist h.among
  declared d hd := (h.mem d).1 hd
  value p v := by
    have honce : rule.DeclaresOnce := hnodup.sublist h.among
    rw [honce.value?_eq_some, h.mem]
    constructor
    · rintro ⟨q, w, heq, hs⟩
      obtain rfl := StyleProperty.name_injective (congrArg Declaration.property heq)
      obtain rfl := congrArg Declaration.value heq
      exact hs
    · exact fun hs => ⟨p, v, rfl, hs⟩

end Lists

/-! ### The declarations of a style -/

variable {value : Value} {style : Style} {p : StyleProperty}

lemma lists_ite (c : Prop) [Decidable c] (p : StyleProperty) (value : Text) :
    Lists [p] (fun q v => q = p ∧ v = value ∧ c) (if c then [⟨p.name, value⟩] else []) := by
  split
  · rename_i hc
    exact (Lists.single p value).congr fun q v => by simp [hc]
  · rename_i hc
    exact .nil _ fun q v h => hc h.2.2

lemma lists_declarationOf {write : Value → Except Fault Text} (hnull : ∀ s, write .null ≠ .ok s)
    (h : declarationOf p.name write value = .ok ds) :
    Lists [p] (fun q s => q = p ∧ write value = .ok s) ds := by
  unfold declarationOf at h
  split at h
  · rename_i hvalue
    cases h
    obtain rfl : value = .null := by cases value <;> first | rfl | cases hvalue
    exact .nil _ fun q s hs => hnull s hs.2
  · obtain ⟨s, hs, h⟩ := bind_eq_ok.1 h
    cases h
    refine (Lists.single p s).congr fun q v => and_congr_right fun _ => ?_
    rw [hs, Except.ok.injEq, eq_comm]

lemma lists_pixels (h : declarationOf p.name pixels value = .ok ds) :
    Lists [p] (fun q s => q = p ∧ pixels value = .ok s) ds :=
  lists_declarationOf (fun _ hs => by cases hs) h

lemma lists_measure (h : declarationOf p.name measure value = .ok ds) :
    Lists [p] (fun q s => q = p ∧ measure value = .ok s) ds :=
  lists_declarationOf (fun _ hs => by cases hs) h

lemma lists_declarationOf? (p : StyleProperty) (text : Option Text) :
    Lists [p] (fun q s => q = p ∧ text = some s) (declarationOf? p.name text) := by
  cases text with
  | none => exact .nil _ fun q s h => by cases h.2
  | some s => exact (Lists.single p s).congr fun q v => by simp [eq_comm]

lemma lists_text {text : Option TextStyle} (h : textDeclarations text = .ok ds) :
    Lists StyleProperty.typographic (fun p s => ∃ t, text = some t ∧ TextSays t p s) ds := by
  cases text with
  | none =>
    cases h
    exact .nil _ fun p s ⟨t, ht, _⟩ => by cases ht
  | some t =>
    obtain ⟨size, hsize, h⟩ := bind_eq_ok.1 h
    obtain ⟨weight, hweight, h⟩ := bind_eq_ok.1 h
    obtain ⟨lineHeight, hlineHeight, h⟩ := bind_eq_ok.1 h
    obtain ⟨spacing, hspacing, h⟩ := bind_eq_ok.1 h
    cases h
    have hfamily := lists_ite (t.fontFamily.truthy = true) .fontFamily
      ("'" ++ t.fontFamily.display ++ "', sans-serif")
    have hsizes := (((hfamily.append (lists_pixels (p := .fontSize) hsize)).append
      (lists_measure (p := .fontWeight) hweight)).append
        (lists_pixels (p := .lineHeight) hlineHeight)).append (lists_pixels (p := .letterSpacing) hspacing)
    have hall := (hsizes.append (lists_declarationOf? .color t.color)).append
      (lists_declarationOf? .textAlign t.textAlign)
    refine Lists.congr hall fun p s => ?_
    simp only [Option.some.injEq, exists_eq_left', or_assoc]
    constructor
    · rintro (⟨rfl, rfl, h⟩ | ⟨rfl, h⟩ | ⟨rfl, h⟩ | ⟨rfl, h⟩ | ⟨rfl, h⟩ | ⟨rfl, h⟩ | ⟨rfl, h⟩)
      · exact .fontFamily h
      · exact .fontSize h
      · exact .fontWeight h
      · exact .lineHeight h
      · exact .letterSpacing h
      · exact .color h
      · exact .textAlign h
    · intro hs
      cases hs <;> simp [*]

lemma lists_box (h : boxDeclarations style = .ok ds) :
    Lists [.flex, .width, .height, .background, .radius] (fun p s => (p = .flex ∧ s = "1" ∧ style.flexGrow) ∨
      (p = .width ∧ style.width.map Extent.text = some s) ∨
      (p = .height ∧ style.height.map Extent.text = some s) ∨
      (p = .background ∧ style.backgroundColor = some s) ∨
      (p = .radius ∧ pixels style.borderRadius = .ok s)) ds := by
  obtain ⟨radius, hradius, h⟩ := bind_eq_ok.1 h
  cases h
  have hflex := lists_ite (style.flexGrow = true) .flex "1"
  have hextents := (hflex.append (lists_declarationOf? .width (style.width.map Extent.text))).append
    (lists_declarationOf? .height (style.height.map Extent.text))
  have hall := (hextents.append (lists_declarationOf? .background style.backgroundColor)).append
    (lists_pixels (p := .radius) hradius)
  exact Lists.congr hall fun p s => by simp only [or_assoc]

lemma lists_flex (flexBox : Option FlexBox) :
    Lists [.display, .direction, .align, .justify] (fun p s => ∃ flex, flexBox = some flex ∧
      ((p = .display ∧ s = flex.display.name) ∨ (p = .direction ∧ s = flex.direction.name) ∨
        (p = .align ∧ s = alignmentWord flex.align) ∨ (p = .justify ∧ s = alignmentWord flex.justify)))
      (flexDeclarations flexBox) := by
  cases flexBox with
  | none => exact .nil _ fun p s ⟨flex, hflex, _⟩ => by cases hflex
  | some flex =>
    have hplace := (Lists.single .display flex.display.name).append
      (Lists.single .direction flex.direction.name)
    have halign := (Lists.single .align (alignmentWord flex.align)).append
      (Lists.single .justify (alignmentWord flex.justify))
    exact Lists.congr (hplace.append halign) fun p s => by
      simp only [Option.some.injEq, exists_eq_left', or_assoc]

lemma lists_padding {padding : Option Padding} (h : paddingDeclarations padding = .ok ds) :
    Lists [.padding] (fun p s => p = .padding ∧ ∃ q top right bottom left, padding = some q ∧
      pixels q.top = .ok top ∧ pixels q.right = .ok right ∧ pixels q.bottom = .ok bottom ∧
      pixels q.left = .ok left ∧ s = top ++ " " ++ right ++ " " ++ bottom ++ " " ++ left) ds := by
  cases padding with
  | none =>
    cases h
    exact .nil _ fun p s ⟨_, q, _, _, _, _, hq, _⟩ => by cases hq
  | some q =>
    obtain ⟨top, htop, h⟩ := bind_eq_ok.1 h
    obtain ⟨right, hright, h⟩ := bind_eq_ok.1 h
    obtain ⟨bottom, hbottom, h⟩ := bind_eq_ok.1 h
    obtain ⟨left, hleft, h⟩ := bind_eq_ok.1 h
    cases h
    exact (Lists.single .padding _).congr fun p s => by simp [htop, hright, hbottom, hleft]

/-- The declarations of a style are what it says. -/
theorem lists_style (h : styleDeclarations style = .ok ds) :
    Lists StyleProperty.ofStyle (Says style) ds := by
  obtain ⟨gap, hgap, h⟩ := bind_eq_ok.1 h
  obtain ⟨padding, hpadding, h⟩ := bind_eq_ok.1 h
  obtain ⟨box, hbox, h⟩ := bind_eq_ok.1 h
  obtain ⟨text, htext, h⟩ := bind_eq_ok.1 h
  cases h
  have hlayout := ((lists_flex style.flexBox).append (lists_pixels (p := .gap) hgap)).append
    (lists_padding hpadding)
  have hall := (hlayout.append (lists_box hbox)).append (lists_text htext)
  refine Lists.congr hall fun p s => ?_
  simp only [or_assoc, Option.map_eq_some_iff]
  constructor
  · rintro (⟨flex, hf, h⟩ | ⟨rfl, h⟩ | ⟨rfl, q, _, _, _, _, hq, htop, hright, hbottom, hleft, rfl⟩ |
      ⟨rfl, rfl, h⟩ | ⟨rfl, x, hx, rfl⟩ | ⟨rfl, x, hx, rfl⟩ | ⟨rfl, h⟩ | ⟨rfl, h⟩ | ⟨t, ht, h⟩)
    · rcases h with ⟨rfl, rfl⟩ | ⟨rfl, rfl⟩ | ⟨rfl, rfl⟩ | ⟨rfl, rfl⟩
      · exact .display hf
      · exact .direction hf
      · exact .align hf
      · exact .justify hf
    · exact .gap h
    · exact .padding hq htop hright hbottom hleft
    · exact .flex h
    · exact .width hx
    · exact .height hx
    · exact .background h
    · exact .radius h
    · exact .text ht h
  · intro hs
    cases hs with
    | text ht hs => simp [ht, hs]
    | padding hq htop hright hbottom hleft => simp [hq, htop, hright, hbottom, hleft]
    | _ h => simp [h]

end

/-! ### The rules of a style sheet -/

section

variable {files : FileMap} {component : Component} {e : Element} {rule : Rule}

/-- The rule of the component states what the style of its top says. -/
theorem states_rootRule (h : rootRule component = .ok rule) : rule.States (Says component.style) := by
  obtain ⟨ds, hds, h⟩ := bind_eq_ok.1 h
  cases h
  exact (lists_style hds).states (StyleProperty.nodup_names.sublist ((List.sublist_append_left _ _).map _))

/-- The rule of an element states what its style says, and that an exported picture does not shrink. -/
theorem states_elementRule (h : elementRule files e = .ok rule) : rule.States (ElementSays files e) := by
  obtain ⟨ds, hds, h⟩ := bind_eq_ok.1 h
  cases h
  obtain ⟨own, hown, hds⟩ := bind_eq_ok.1 hds
  cases hds
  have hshrink := lists_ite ((e.isAsset && (files.file? e.key).isSome) = true) .shrink "0"
  have hall := (lists_style hown).append hshrink
  refine Lists.states (Lists.congr hall fun p s => ?_) StyleProperty.nodup_names
  constructor
  · rintro (h | ⟨rfl, rfl, h⟩)
    · exact .own h
    · rw [Bool.and_eq_true] at h
      exact .shrink h.1 h.2
  · rintro (h | ⟨hasset, hfile⟩)
    · exact .inl h
    · exact .inr ⟨rfl, rfl, by rw [hasset, hfile]; rfl⟩

/-- How a size of the design is written. -/
inductive IsSizeText (size : Value) : Text → Prop
  | auto (h : size = .null) : IsSizeText size "auto"
  | number {s : Text} (h : measure size = .ok s) : IsSizeText size s

lemma isSizeText_of_designSize {size : Value} {s : Text} (h : designSize size = .ok s) : IsSizeText size s := by
  unfold designSize at h
  split at h
  · rename_i hnull
    cases h
    exact .auto (by cases size <;> first | rfl | cases hnull)
  · exact .number h

/-- The style sheet of a component with its rules: that of the component and inside it those of the elements, in
preorder. -/
structure IsSheetOf (files : FileMap) (component : Component) (top : Rule) (inner : List Rule)
    (sheet : Text) : Prop where
  outer : rootRule component = .ok top
  nested : List.Forall₂ (fun e rule => elementRule files e = .ok rule) component.elements inner
  text : ∃ name width height : Text, component.source.name = .text name ∧
    IsSizeText component.source.width width ∧ IsSizeText component.source.height height ∧ sheet = unlines (
    (["@use '../variables' as *;", "", top.selector ++ " \x7b"] : Lines) ++
    top.declarations.map (Declaration.line 1) ++
    inner.flatMap Rule.nestedLines ++
    (["",
     "  // Figma component: " ++ Text.singleSpaced name,
     "  // Original size: " ++ width ++ "x" ++ height,
     "  // Child elements: " ++ toString component.elements.length,
     "\x7d",
     ""] : Lines))

lemma isSheetOf_of_stylesheet {sheet : Text} (h : stylesheet files component = .ok sheet) :
    ∃ top inner, IsSheetOf files component top inner sheet := by
  obtain ⟨top, htop, h⟩ := bind_eq_ok.1 h
  obtain ⟨inner, hinner, h⟩ := bind_eq_ok.1 h
  obtain ⟨width, hwidth, h⟩ := bind_eq_ok.1 h
  obtain ⟨height, hheight, h⟩ := bind_eq_ok.1 h
  obtain ⟨name, hname, h⟩ := bind_eq_ok.1 h
  cases h
  have hlabel : component.source.name = .text name := by
    cases hsource : component.source.name <;> rw [hsource] at hname <;> cases hname
    rfl
  exact ⟨top, inner, htop, forall₂_of_mapM hinner, name, width, height, hlabel,
    isSizeText_of_designSize hwidth, isSizeText_of_designSize hheight, rfl⟩

/-- Each element has its rule in the sheet. -/
lemma IsSheetOf.exists_rule {top : Rule} {inner : List Rule} {sheet : Text}
    (h : IsSheetOf files component top inner sheet) (he : e ∈ component.elements) :
    ∃ rule ∈ inner, elementRule files e = .ok rule := by
  obtain ⟨rule, hrule, hr⟩ := exists_of_mem_forall₂ h.nested.flip he
  exact ⟨rule, hrule, hr⟩

/-- Each declaration stands on a line of the sheet. -/
lemma IsSheetOf.exists_lines {top : Rule} {inner : List Rule} {sheet : Text}
    (h : IsSheetOf files component top inner sheet) : ∃ lines, sheet = unlines lines ∧
      (∀ d ∈ top.declarations, d.line 1 ∈ lines) ∧
      ∀ rule ∈ inner, ∀ d ∈ rule.declarations, d.line 2 ∈ lines := by
  obtain ⟨name, width, height, -, -, -, rfl⟩ := h.text
  refine ⟨_, rfl, fun d hd => ?_, fun rule hrule d hd => ?_⟩
  · exact List.mem_append_left _ (List.mem_append_left _ (List.mem_append_right _ (List.mem_map_of_mem hd)))
  · refine List.mem_append_left _ (List.mem_append_right _ (List.mem_flatMap.2 ⟨rule, hrule, ?_⟩))
    exact List.mem_append_left _ (List.mem_append_right _ (List.mem_map_of_mem hd))

end

end Handoff.Render
