import Handoff.Proofs.Component.Retexting
import Handoff.Proofs.Component.Slots
import Handoff.Proofs.Design.Typed
import Handoff.Proofs.Render.TopLevel
import Handoff.Render.Stylesheet
import Handoff.Render.Twig

/-!
The files of components that differ in what their texts say.

Style sheets and twig files do not show what texts say. Templates and catalogs show it in literals, and
a literal stands on one line whatever it denotes; so these files differ in the lines with the literals
and in no others.
-/

namespace Handoff

open Asset Design Naming Render Text

/-! ### Lines -/

/-- The lines of a text when these characters end a line. -/
def linesOf (ends : CodePoint → Bool) (text : Text) : List Text :=
  (text.toList.splitOnP ends).map ofList

/-- Line feeds end a line, and nothing else does but perhaps carriage returns. -/
structure EndsLines (ends : CodePoint → Bool) : Prop where
  lineFeed : ends (.char '\n') = true
  only : ∀ c, ends c = true → c = .char '\n' ∨ c = .char '\r'

/-- Nothing in the text ends a line. -/
def Unbroken (ends : CodePoint → Bool) (text : Text) : Prop := ∀ c ∈ text.toList, ends c = false

variable {ends : CodePoint → Bool}

lemma linesOf_unlines (hends : EndsLines ends) {lines : List Text} (hne : lines ≠ []) :
    linesOf ends (unlines lines) = lines.flatMap (linesOf ends) := by
  induction lines with
  | nil => exact absurd rfl hne
  | cons line rest ih =>
    by_cases hrest : rest = []
    · rw [hrest, unlines_singleton, List.flatMap_cons, List.flatMap_nil, List.append_nil]
    · have hlist : (line ++ "\n" ++ unlines rest).toList =
          line.toList ++ .char '\n' :: (unlines rest).toList := List.append_assoc ..
      rw [unlines_cons line hrest, linesOf, hlist, List.splitOnP_append_cons _ _ hends.lineFeed,
        List.map_append, List.flatMap_cons, ← ih hrest]
      rfl

lemma unbroken_append {a b : Text} : Unbroken ends (a ++ b) ↔ Unbroken ends a ∧ Unbroken ends b := by
  simp only [Unbroken, toList_append, List.forall_mem_append]

lemma linesOf_of_unbroken {text : Text} (h : Unbroken ends text) : linesOf ends text = [text] := by
  rw [linesOf, List.splitOnP_eq_singleton h, List.map_singleton]

lemma flatMap_linesOf {lines : List Text} (h : ∀ line ∈ lines, Unbroken ends line) :
    lines.flatMap (linesOf ends) = lines := by
  rw [List.flatMap_congr fun line hline => linesOf_of_unbroken (h line hline), List.flatMap_singleton']

lemma EndsLines.unbroken_of_over (hends : EndsLines ends) {p : CodePoint → Bool} {text : Text}
    (h : Over p text) (hp : p (.char '\n') = false ∧ p (.char '\r') = false) : Unbroken ends text := by
  intro c hc
  by_contra hend
  rcases hends.only c (by simpa using hend) with rfl | rfl
  · exact absurd (h _ hc) (by simp [hp.1])
  · exact absurd (h _ hc) (by simp [hp.2])

lemma EndsLines.unbroken_of_plain (hends : EndsLines ends) {s : String}
    (h : (ofString s).toList.all fun c => c != .char '\n' && c != .char '\r') : Unbroken ends s :=
  hends.unbroken_of_over (p := fun c => c != .char '\n' && c != .char '\r')
    (fun c hc => List.all_eq_true.1 h c hc) (by decide)

/-- Whatever a literal denotes, it has no line end in it. -/
lemma EndsLines.unbroken_scriptLiteral (hends : EndsLines ends) (text : Text) :
    Unbroken ends (scriptLiteral text) := by
  refine hends.unbroken_of_over (p := fun c => !breaksScript c) (fun c hc => ?_) (by decide)
  exact congrArg not (breaksScript_scriptLiteral text c hc)

/-! ### Text properties -/

/-- The text properties with these texts as defaults. -/
def textDefaults (texts : List Text) : List Property :=
  texts.zipIdx.map fun t => ⟨slotName (t.2 + 1), scriptLiteral t.1⟩

lemma mapM_textProperty (component : Component) :
    component.textProps.mapM textProperty =
      (do return textDefaults (← component.texts.mapM (Value.asText .noSuchField))) := by
  have hall (values : List Value) (k : Nat) :
      ((values.zipIdx k).map fun t => ((slotName (t.2 + 1), t.1) : Text × Value)).mapM textProperty =
        (do
          let texts ← values.mapM (Value.asText .noSuchField)
          return (texts.zipIdx k).map fun t => (⟨slotName (t.2 + 1), scriptLiteral t.1⟩ : Property)) := by
    induction values generalizing k with
    | nil => rfl
    | cons value rest ih =>
      rw [List.zipIdx_cons, List.map_cons, List.mapM_cons, List.mapM_cons, ih (k + 1), textProperty]
      rcases value.asText .noSuchField with fault | s
      · rfl
      · simp only [ok_bind, bind_assoc, pure_bind]
        rfl
  exact hall component.texts 0

/-- The lines of text properties, in whatever way they are written. -/
lemma unbroken_of_mem_textDefaults (hends : EndsLines ends) {texts : List Text} :
    ∀ p ∈ textDefaults texts, Unbroken ends p.line ∧ Unbroken ends (argLine p) := by
  intro p hp
  obtain ⟨⟨text, i⟩, -, rfl⟩ := List.mem_map.1 hp
  have hplain {s : String} := hends.unbroken_of_plain (s := s)
  have hname : Unbroken ends (slotName (i + 1)) :=
    hends.unbroken_of_over (wordy_slotName _) (by decide)
  have hdefault := hends.unbroken_scriptLiteral text
  simp only [Property.line, argLine, unbroken_append]
  exact ⟨⟨⟨⟨⟨hplain (by decide), hname⟩, hplain (by decide)⟩, hdefault⟩, hplain (by decide)⟩,
    ⟨⟨⟨hplain (by decide), hname⟩, hplain (by decide)⟩, hdefault⟩, hplain (by decide)⟩

/-! ### What does not depend on the texts -/

section

variable {c c' : Component} {e e' : Element} (files : FileMap)

lemma Component.Retexted.forest (h : c.Retexted c') :
    Tree.RelatedAll Element.Retexted c.forest c'.forest := by
  have himage := h.rootImage
  unfold Component.forest
  rcases hc : c.rootImage with _ | e <;> rcases hc' : c'.rootImage with _ | e' <;>
    rw [hc, hc'] at himage <;> cases himage
  · exact h.body
  · rename_i he
    simp only [Tree.RelatedAll, Tree.Related]
    exact ⟨⟨he, trivial⟩, h.body⟩

lemma Component.Retexted.elements (h : c.Retexted c') :
    List.Forall₂ Element.Retexted c.elements c'.elements :=
  Tree.RelatedAll.preorderAll _ _ h.forest

lemma Element.Retexted.isAsset (h : e.Retexted e') : e'.isAsset = e.isAsset := by
  rw [Element.isAsset, Element.isAsset, h.role]

lemma Component.Retexted.assets (h : c.Retexted c') :
    List.Forall₂ Element.Retexted c.assets c'.assets :=
  List.rel_filter (fun _ _ he => by simp only [he.isAsset]) h.elements

lemma Component.Retexted.hasAssets (h : c.Retexted c') : c'.hasAssets = c.hasAssets := by
  have hassets := h.assets
  unfold Component.hasAssets
  generalize c.assets = as, c'.assets = as' at hassets ⊢
  cases hassets <;> rfl

lemma Component.Retexted.texts (h : c.Retexted c') : List.Forall₂ SameText c.texts c'.texts := by
  refine List.rel_filterMap (fun e e' he => ?_) h.elements
  rw [he.slot]
  split
  · exact .some he.layer.characters
  · exact .none

/-- Two lists of values are texts, as many in each. -/
structure AreTexts (values values' : List Value) (texts texts' : List Text) : Prop where
  left : values = texts.map Value.text
  right : values' = texts'.map Value.text
  sameLength : texts'.length = texts.length

lemma AreTexts.cons {values values' : List Value} {texts texts' : List Text}
    (h : AreTexts values values' texts texts') (s s' : Text) :
    AreTexts (.text s :: values) (.text s' :: values') (s :: texts) (s' :: texts') :=
  ⟨congrArg (_ :: ·) h.left, congrArg (_ :: ·) h.right, congrArg (· + 1) h.sameLength⟩

/-- Reading related texts fails alike or gives as many texts. -/
lemma sameOutcome_texts {values values' : List Value} (h : List.Forall₂ SameText values values')
    (fault : Fault) : SameOutcome (AreTexts values values')
      (values.mapM (Value.asText fault)) (values'.mapM (Value.asText fault)) := by
  induction h with
  | nil => exact .ok ⟨rfl, rfl, rfl⟩
  | @cons value _ _ _ hfirst _ ih =>
    rw [List.mapM_cons, List.mapM_cons]
    cases hfirst with
    | same =>
      cases value with
      | text s => exact ih.bind fun texts texts' h => .ok (h.cons s s)
      | _ => exact .error fault
    | texts s s' => exact ih.bind fun texts texts' h => .ok (h.cons s s')

lemma Element.Retexted.description (h : e.Retexted e') : description e' = description e := by
  have hname : e'.layer.name = e.layer.name := by rw [h.layer.apart]
  rw [Render.description, Render.description, hname, h.role]

lemma Component.Retexted.isPrimary (h : c.Retexted c') (he : e.Retexted e') :
    isPrimary c' e' = isPrimary c e := by
  have hassets := h.assets
  unfold Render.isPrimary Component.primary?
  rcases hc : c.assets with _ | ⟨first, rest⟩ <;> rcases hc' : c'.assets with _ | ⟨first', rest'⟩ <;>
    rw [hc, hc'] at hassets <;> cases hassets
  · rfl
  · rename_i hfirst hrest
    simp only [List.head?_cons, hfirst.key, he.key]

lemma templateTag_retexted (h : c.Retexted c') (he : e.Retexted e') :
    templateTag files c' e' = templateTag files c e := by
  unfold templateTag pictureTag Element.cssClass
  simp only [h.name, he.elementClass, he.isAsset, he.slot, h.isPrimary he, he.key, he.description]

lemma twigTag_retexted (assetsPath : Text) (he : e.Retexted e') :
    twigTag files assetsPath e' = twigTag files assetsPath e := by
  unfold twigTag twigClass
  simp only [he.elementClass, he.isAsset, he.slot, he.key, he.description]

variable {tag tag' : Element → Except Fault Tag}

mutual

lemma markupTree_retexted (htag : ∀ e e', e.Retexted e' → tag' e' = tag e) (t u : Tree Element)
    (h : Tree.Related Element.Retexted t u) : markupTree tag' u = markupTree tag t := by
  match t, u with
  | .node e below, .node e' below' =>
    rw [Tree.Related] at h
    rw [markupTree, markupTree, htag _ _ h.1, h.1.role, markupForest_retexted htag below below' h.2]

lemma markupForest_retexted (htag : ∀ e e', e.Retexted e' → tag' e' = tag e) (ts us : Forest Element)
    (h : Tree.RelatedAll Element.Retexted ts us) : markupForest tag' us = markupForest tag ts := by
  match ts, us with
  | [], [] => rfl
  | [], u :: us => simp [Tree.RelatedAll] at h
  | t :: ts, [] => simp [Tree.RelatedAll] at h
  | t :: ts, u :: us =>
    rw [Tree.RelatedAll] at h
    rw [markupForest, markupForest, markupTree_retexted htag t u h.1,
      markupForest_retexted htag ts us h.2]

end

/-- A twig file does not show what texts say. -/
theorem twig_retexted (assetsPath : Text) (h : c.Retexted c') :
    twig files assetsPath c' = twig files assetsPath c := by
  have hmarkup : twigMarkup files assetsPath c' = twigMarkup files assetsPath c :=
    markupForest_retexted (fun _ _ he => twigTag_retexted files assetsPath he) _ _ h.forest
  simp only [twig, hmarkup, Component.cssClass, h.name]

lemma styleDeclarations_retexted {style style' : Style} (h : style'.mute = style.mute) :
    styleDeclarations style' = styleDeclarations style := by
  have hmute (style : Style) : styleDeclarations style.mute = styleDeclarations style := by
    obtain ⟨-, -, -, -, -, -, -, -, text⟩ := style
    cases text <;> rfl
  rw [← hmute style', h, hmute]

/-- A style sheet does not show what texts say. -/
theorem stylesheet_retexted (h : c.Retexted c') : stylesheet files c' = stylesheet files c := by
  have hroot : rootRule c' = rootRule c := by
    rw [rootRule, rootRule, styleDeclarations_retexted h.style, Component.cssClass, h.name]
    rfl
  have hrules : elementRules files c' = elementRules files c := by
    refine SameOutcome.mapM_eq h.elements fun e e' he => ?_
    simp only [elementRule, elementDeclarations, styleDeclarations_retexted he.style,
      he.elementClass, he.isAsset, he.key]
  have hsource := h.source.apart
  have hsize := h.elements.length_eq
  simp only [stylesheet, hroot, hrules, ← hsize]
  rw [hsource]

end

/-! ### Templates -/

/-- The lines of a template in front of its text properties. -/
def linesBeforeTexts (files : FileMap) (component : Component) (assetsImport : Text) : Lines :=
  importLines files component assetsImport ++ headLines component ++
    (["export const " ++ component.name ++ " = (\x7b", Property.line ⟨"className", "''"⟩] : Lines)

/-- The lines of a template behind its text properties. -/
def linesAfterTexts (component : Component) (markup : Markup) : Lines :=
  (imageProperties component).map Property.line ++
    (["  ...props", "\x7d) => \x7b", "  return (", rootBox component] : Lines) ++
    forestLines scriptDialect 3 markup ++
    (["    </div>", "  );", "\x7d;", "", "export default " ++ component.name ++ ";", ""] : Lines)

lemma template_eq (files : FileMap) (component : Component) (assetsImport : Text) :
    template files component assetsImport = (do
      let texts ← component.texts.mapM (Value.asText .noSuchField)
      let markup ← templateMarkup files component
      return unlines (linesBeforeTexts files component assetsImport ++
        (textDefaults texts).map Property.line ++ linesAfterTexts component markup)) := by
  unfold template properties
  rw [mapM_textProperty]
  simp only [bind_assoc, pure_bind]
  refine bind_congr fun texts => bind_congr fun markup => ?_
  simp only [linesBeforeTexts, linesAfterTexts, List.map_append, List.map_cons, List.append_assoc,
    List.cons_append, List.nil_append]

/-- The lines of two templates are the same but for those of the text properties, which stand at one
place in both and are as many. -/
def SameTemplate (ends : CodePoint → Bool) (c c' : Component) (t t' : Text) : Prop :=
  ∃ texts texts' before after, AreTexts c.texts c'.texts texts texts' ∧
    linesOf ends t = before ++ (textDefaults texts).map Property.line ++ after ∧
    linesOf ends t' = before ++ (textDefaults texts').map Property.line ++ after

section

variable {c c' : Component}

/-- Templates that differ in what their texts say differ in the lines of the text properties. -/
theorem template_retexted (hends : EndsLines ends) (files : FileMap) (assetsImport : Text)
    (h : c.Retexted c') : SameOutcome (SameTemplate ends c c')
      (template files c assetsImport) (template files c' assetsImport) := by
  have hmarkup : templateMarkup files c' = templateMarkup files c :=
    markupForest_retexted (fun _ _ he => templateTag_retexted files h he) _ _ h.forest
  have hfiles : shownFiles files c' = shownFiles files c := by
    rw [shownFiles, shownFiles, filterMap_eq_of_forall₂ h.assets fun e e' he => by rw [he.key]]
  have hbefore : linesBeforeTexts files c' assetsImport = linesBeforeTexts files c assetsImport := by
    simp only [linesBeforeTexts, importLines, headLines, h.name, hfiles, h.texts.length_eq,
      h.elements.length_eq, h.assets.length_eq]
  have hafter (markup : Markup) : linesAfterTexts c' markup = linesAfterTexts c markup := by
    simp only [linesAfterTexts, imageProperties, rootBox, Component.cssClass, h.hasAssets, h.name]
  have hlines (markup : Markup) (texts : List Text) :
      linesOf ends (unlines (linesBeforeTexts files c assetsImport ++
          (textDefaults texts).map Property.line ++ linesAfterTexts c markup)) =
        (linesBeforeTexts files c assetsImport).flatMap (linesOf ends) ++
          (textDefaults texts).map Property.line ++
          (linesAfterTexts c markup).flatMap (linesOf ends) := by
    rw [linesOf_unlines hends (by simp [linesAfterTexts]), List.flatMap_append, List.flatMap_append,
      flatMap_linesOf (List.forall_mem_map.2 fun p hp => (unbroken_of_mem_textDefaults hends p hp).1)]
  rw [template_eq, template_eq, hmarkup, hbefore]
  refine (sameOutcome_texts h.texts .noSuchField).bind fun texts texts' htexts => ?_
  refine SameOutcome.bind_eq rfl fun markup => .ok ?_
  rw [hafter]
  exact ⟨texts, texts', _, _, htexts, hlines markup texts, hlines markup texts'⟩

end

/-! ### Catalogs -/

/-- The line of a catalog that shows all texts of a component. -/
def descriptionLine (display : Text) : Text := "        component: " ++ scriptLiteral display ++ ","

/-- The lines of a catalog in front of its description. -/
def linesBeforeDescription (component : Component) : Lines :=
  let name := component.name
  ["import React from 'react';",
   "import \x7b " ++ name ++ " \x7d from './" ++ name ++ "';",
   "",
   "/**",
   " * " ++ name ++ " Component Stories",
   " * Auto-generated from Figma",
   " */",
   "export default \x7b",
   "  title: 'Components/" ++ name ++ "',",
   "  component: " ++ name ++ ",",
   "  parameters: \x7b",
   "    docs: \x7b",
   "      description: \x7b"]

/-- The lines of a catalog between its description and the texts of its first story. -/
def linesBeforeArgs (component : Component) (noTexts : Bool) : Lines :=
  (["      \x7d,",
    "    \x7d,",
    "  \x7d,",
    "  argTypes: " ++ argTypesText (argTypes component) ++ ",",
    "\x7d;",
    "",
    "const Template = (args) => <" ++ component.name ++ " \x7b...args\x7d />;",
    "",
    "export const Default = Template.bind(\x7b\x7d);"] : Lines) ++
    if noTexts then [] else (["Default.args = \x7b"] : Lines)

/-- The stories of a component but the first. -/
def laterStories (component : Component) : List Story :=
  (if component.hasAssets then
    [⟨"WithImage",
      [⟨"imageSrc", scriptLiteral placeholderImage⟩,
       ⟨"imageAlt", scriptLiteral (component.name ++ " image")⟩]⟩] else []) ++
    [⟨"WithCustomClass", [⟨"className", scriptLiteral "custom-variant"⟩]⟩]

/-- The lines of a catalog behind the texts of its first story. -/
def linesAfterArgs (component : Component) (noTexts : Bool) : Lines :=
  (if noTexts then (["Default.args = \x7b\x7d;"] : Lines) else (["\x7d;"] : Lines)) ++
    (laterStories component).flatMap Story.lines ++ ([""] : Lines)

lemma stories_eq (component : Component) : stories component = (do
    let texts ← component.texts.mapM (Value.asText .noSuchField)
    return ⟨"Default", textDefaults texts⟩ :: laterStories component) := by
  unfold stories
  rw [mapM_textProperty, bind_assoc]
  rfl

lemma catalog_eq (component : Component) : catalog component = (do
    let display ← displayText component
    let texts ← component.texts.mapM (Value.asText .noSuchField)
    return unlines (linesBeforeDescription component ++ ([descriptionLine display] : Lines) ++
      linesBeforeArgs component texts.isEmpty ++ (textDefaults texts).map argLine ++
      linesAfterArgs component texts.isEmpty)) := by
  have hempty (texts : List Text) : (textDefaults texts).isEmpty = texts.isEmpty := by
    cases texts <;> rfl
  unfold catalog
  rw [stories_eq]
  simp only [bind_assoc, pure_bind]
  refine bind_congr fun display => bind_congr fun texts => ?_
  rw [List.flatMap_cons, Story.lines, hempty]
  cases texts with
  | nil => rfl
  | cons first rest =>
    simp only [linesBeforeDescription, descriptionLine, linesBeforeArgs, linesAfterArgs,
      List.isEmpty_cons, Bool.false_eq_true, if_false, List.append_assoc, List.cons_append,
      List.nil_append]
    rfl

/-- The lines of two catalogs are the same but for the description, and for the texts of the first
story, which stand at one place in both and are as many. -/
def SameCatalog (ends : CodePoint → Bool) (c c' : Component) (t t' : Text) : Prop :=
  ∃ display display' texts texts' before between after, AreTexts c.texts c'.texts texts texts' ∧
    (texts ≠ [] → ∃ more, between = more ++ (["Default.args = \x7b"] : Lines)) ∧
    linesOf ends t = before ++ ([descriptionLine display] : Lines) ++ between ++
      (textDefaults texts).map argLine ++ after ∧
    linesOf ends t' = before ++ ([descriptionLine display'] : Lines) ++ between ++
      (textDefaults texts').map argLine ++ after

section

variable {c c' : Component}

lemma displayText_retexted (h : c.Retexted c') :
    SameOutcome (fun _ _ => True) (displayText c) (displayText c') :=
  (sameOutcome_texts h.texts .wrongType).bind fun _ _ _ => .ok trivial

lemma argTypes_retexted (h : c.Retexted c') : argTypes c' = argTypes c := by
  have hnames : c'.textProps.map Prod.fst = c.textProps.map Prod.fst := by
    rw [names_of_textProps, names_of_textProps, h.texts.length_eq]
  have hown (component : Component) :
      (component.textProps.zipIdx.map fun p =>
        (⟨p.1.1, "Text content " ++ toString (p.2 + 1)⟩ : ArgType)) =
        (component.textProps.map Prod.fst).zipIdx.map fun p =>
          ⟨p.1, "Text content " ++ toString (p.2 + 1)⟩ := by
    rw [List.zipIdx_map, List.map_map]
    rfl
  rw [argTypes, argTypes, hown, hown, hnames, h.hasAssets]

/-- The description is one line. -/
lemma linesOf_descriptionLine (hends : EndsLines ends) (display : Text) :
    linesOf ends (descriptionLine display) = [descriptionLine display] := by
  refine linesOf_of_unbroken (unbroken_append.2 ⟨unbroken_append.2 ⟨?_, ?_⟩, ?_⟩)
  · exact hends.unbroken_of_plain (by decide)
  · exact hends.unbroken_scriptLiteral display
  · exact hends.unbroken_of_plain (by decide)

/-- The description and each text of the first story are one line of a catalog. -/
lemma linesOf_catalog (hends : EndsLines ends) (component : Component) (display : Text)
    (texts : List Text) (noTexts : Bool) :
    linesOf ends (unlines (linesBeforeDescription component ++ ([descriptionLine display] : Lines) ++
        linesBeforeArgs component noTexts ++ (textDefaults texts).map argLine ++
        linesAfterArgs component noTexts)) =
      (linesBeforeDescription component).flatMap (linesOf ends) ++
        ([descriptionLine display] : Lines) ++
        (linesBeforeArgs component noTexts).flatMap (linesOf ends) ++
        (textDefaults texts).map argLine ++
        (linesAfterArgs component noTexts).flatMap (linesOf ends) := by
  rw [linesOf_unlines hends (by simp [linesAfterArgs])]
  simp only [List.flatMap_append, List.flatMap_singleton, linesOf_descriptionLine hends]
  rw [flatMap_linesOf (List.forall_mem_map.2 fun p hp => (unbroken_of_mem_textDefaults hends p hp).2)]

/-- Catalogs that differ in what their texts say differ in the description and in the texts of the
first story. -/
theorem catalog_retexted (hends : EndsLines ends) (h : c.Retexted c') :
    SameOutcome (SameCatalog ends c c') (catalog c) (catalog c') := by
  have hbefore : linesBeforeDescription c' = linesBeforeDescription c := by
    simp only [linesBeforeDescription, h.name]
  have hbetween (noTexts : Bool) : linesBeforeArgs c' noTexts = linesBeforeArgs c noTexts := by
    simp only [linesBeforeArgs, argTypes_retexted h, h.name]
  have hafter (noTexts : Bool) : linesAfterArgs c' noTexts = linesAfterArgs c noTexts := by
    simp only [linesAfterArgs, laterStories, h.hasAssets, h.name]
  rw [catalog_eq, catalog_eq, hbefore]
  refine (displayText_retexted h).bind fun display display' _ => ?_
  refine (sameOutcome_texts h.texts .noSuchField).bind fun texts texts' htexts => .ok ?_
  have hempty : texts'.isEmpty = texts.isEmpty := by
    rw [Bool.eq_iff_iff, List.isEmpty_iff_length_eq_zero, List.isEmpty_iff_length_eq_zero,
      htexts.sameLength]
  rw [hbetween, hafter, hempty]
  refine ⟨display, display', texts, texts', _, _, _, htexts, fun hne => ?_,
    linesOf_catalog hends c display texts _, linesOf_catalog hends c display' texts' _⟩
  have hopen : linesOf ends "Default.args = \x7b" = ["Default.args = \x7b"] :=
    linesOf_of_unbroken (hends.unbroken_of_plain (by decide))
  rw [linesBeforeArgs, if_neg (by simpa using hne), List.flatMap_append, List.flatMap_singleton, hopen]
  exact ⟨_, rfl⟩

end

/-! ### All files of a component -/

/-- The files of two components differ in the lines that show what texts say, and in nothing else. -/
structure DifferInTexts (ends : CodePoint → Bool) (c c' : Component) : Prop where
  stylesheet : ∀ files, stylesheet files c' = stylesheet files c
  twig : ∀ files assetsPath, twig files assetsPath c' = twig files assetsPath c
  template : ∀ files assetsImport, SameOutcome (SameTemplate ends c c')
    (template files c assetsImport) (template files c' assetsImport)
  catalog : SameOutcome (SameCatalog ends c c') (catalog c) (catalog c')

/-- Two components that differ in the characters of text layers, none of them empty, have the same style
sheets and twig files, and templates and catalogs that differ in the lines of the text properties and in
that of the description, each on a line of its own whatever the texts are; or they fail alike. -/
theorem differInTexts_of_retexted (rules : Rules) (roles : RoleMemo) (name : Text)
    {root root' : LayerTree} (h : Tree.Related Layer.Retexted root root') (hends : EndsLines ends) :
    SameOutcome (fun annotated annotated' =>
        DifferInTexts ends annotated.1 annotated'.1 ∧ annotated'.2 = annotated.2)
      (annotate rules roles root name) (annotate rules roles root' name) := by
  refine (annotate_retexted rules roles name h).imp ?_
  rintro ⟨c, memo⟩ ⟨c', _⟩ ⟨hc, rfl⟩
  exact ⟨{
    stylesheet := fun files => stylesheet_retexted files hc
    twig := fun files assetsPath => twig_retexted files assetsPath hc
    template := fun files assetsImport => template_retexted hends files assetsImport hc
    catalog := catalog_retexted hends hc }, rfl⟩

/-- A card with a title and a note. -/
def notedCard (title note : Text) : LayerTree :=
  .node (plainLayer "1:1" "Card" "COMPONENT") [
    .node { plainLayer "1:2" "Title" "TEXT" with characters := .text title } [],
    .node { plainLayer "1:3" "Note" "TEXT" with characters := .text note } []]

lemma related_notedCard (title note title' note' : Text)
    (h : ∀ text ∈ [title, note, title', note'], text.isEmpty = false) :
    Tree.Related Layer.Retexted (notedCard title note) (notedCard title' note') := by
  simp only [List.forall_mem_cons] at h
  simp only [notedCard, Tree.Related, Tree.RelatedAll, and_true]
  exact ⟨.same _, .retext rfl rfl h.1 h.2.2.1, .retext rfl rfl h.2.1 h.2.2.2.1⟩

lemma endsLines_both : EndsLines fun c => c == .char '\n' || c == .char '\r' where
  lineFeed := by decide
  only c h := by simpa using h

/-- Texts with quotes, backslashes and line ends stand in the place of plain ones. -/
theorem differInTexts_of_retexted_noted : ∃ c c' memo,
    annotate .standard [] (notedCard "Hello" "one line") "Card" = .ok (c, memo) ∧
    annotate .standard [] (notedCard "Don't \\" "a\r\nb\n") "Card" = .ok (c', memo) ∧
    DifferInTexts (fun c => c == .char '\n' || c == .char '\r') c c' := by
  have h := differInTexts_of_retexted .standard [] "Card" (related_notedCard "Hello" "one line"
    "Don't \\" "a\r\nb\n" (by decide)) endsLines_both
  have hok : (annotate .standard [] (notedCard "Hello" "one line") "Card").isOk = true := by
    decide +kernel
  rcases ha : annotate .standard [] (notedCard "Hello" "one line") "Card" with fault | ⟨c, memo⟩ <;>
    rcases hb : annotate .standard [] (notedCard "Don't \\" "a\r\nb\n") "Card" with
      fault' | ⟨c', memo'⟩ <;>
    rw [ha] at hok h <;> rw [hb] at h <;> cases h
  · cases hok
  · rename_i h
    obtain ⟨hfiles, rfl⟩ := h
    exact ⟨c, c', memo', rfl, rfl, hfiles⟩

end Handoff
