import Handoff.Proofs.Render.Properties
import Handoff.Proofs.Render.Retexting
import Handoff.Proofs.Text.ScriptLiterals

/-!
The files of a component say what the designer wrote.

Each text property of a template has a literal as its default that denotes the characters of its text
element, and each value in a story is a literal that denotes the text meant there.
-/

namespace Handoff.Render

open Asset Design Naming Text

variable {component : Component} {texts : List Text} {file : Text}

/-- Texts with the names of their properties. -/
def numbered (texts : List Text) : List (Text × Text) :=
  texts.zipIdx.map fun t => (slotName (t.2 + 1), t.1)

/-- What the story with a picture sets. -/
def imageTexts (component : Component) : List (Text × Text) :=
  [("imageSrc", placeholderImage), ("imageAlt", component.name ++ " image")]

/-- A story in plain texts: its name and what it sets. -/
structure Told where
  name : Text
  sets : List (Text × Text)

/-- The stories of a component with these texts. -/
def toldStories (component : Component) (texts : List Text) : List Told :=
  ⟨"Default", numbered texts⟩ ::
    (if component.hasAssets then [⟨"WithImage", imageTexts component⟩] else []) ++
    [⟨"WithCustomClass", [("className", "custom-variant")]⟩]

/-- The property has this name, and a literal that denotes this text. -/
def Property.Says (property : Property) (said : Text × Text) : Prop :=
  property.name = said.1 ∧ Denotes property.default said.2

/-- The story has this name, and its properties say what is told. -/
def Story.Tells (story : Story) (told : Told) : Prop :=
  story.name = told.name ∧ List.Forall₂ Property.Says story.args told.sets

/-- The text elements have these characters. -/
def Component.HasTexts (component : Component) (texts : List Text) : Prop :=
  (component.textElements.map fun e => e.layer.characters) = texts.map Value.text

/-- A template whose text properties say what the text elements do. -/
def DeclaresTexts (component : Component) (file : Text) : Prop :=
  ∃ texts defaults script, Component.HasTexts component texts ∧ file = Script.text script ∧
    script.parameters = ⟨"className", "''"⟩ :: defaults ++ imageProperties component ∧
    List.Forall₂ Property.Says defaults (numbered texts)

/-- A catalog whose stories set the texts of the text elements, and plain texts besides. -/
def TellsStories (component : Component) (file : Text) : Prop :=
  ∃ texts list, Component.HasTexts component texts ∧ IsCatalog component (argTypes component) list file ∧
    List.Forall₂ Story.Tells list (toldStories component texts)

lemma eq_map_text_of_mapM {values : List Value} {fault : Fault}
    (h : values.mapM (Value.asText fault) = .ok texts) : values = texts.map Value.text := by
  have hall : List.Forall₂ (fun value s => value = Value.text s) values texts :=
    (forall₂_of_mapM h).imp fun value s hs => by
      cases value <;> cases hs
      rfl
  rwa [← List.forall₂_eq_eq_eq, List.forall₂_map_right_iff]

lemma says_scriptLiteral (name text : Text) : Property.Says ⟨name, scriptLiteral text⟩ (name, text) :=
  ⟨rfl, denotes_scriptLiteral text⟩

lemma says_textDefaults (texts : List Text) :
    List.Forall₂ Property.Says (textDefaults texts) (numbered texts) := by
  unfold textDefaults numbered
  rw [List.forall₂_map_left_iff, List.forall₂_map_right_iff, List.forall₂_same]
  exact fun t _ => says_scriptLiteral _ t.1

/-- The text properties are the literals of texts, and the component has these texts. -/
lemma exists_textDefaults {rules : Rules} {roles roles' : RoleMemo} {root : LayerTree} {name : Text}
    {ps : List Property} (h : annotate rules roles root name = .ok (component, roles'))
    (hps : component.textProps.mapM textProperty = .ok ps) :
    ∃ texts, Component.HasTexts component texts ∧ ps = textDefaults texts := by
  rw [mapM_textProperty] at hps
  obtain ⟨texts, htexts, hps⟩ := bind_eq_ok.1 hps
  cases hps
  refine ⟨texts, ?_, rfl⟩
  rw [Component.HasTexts, ← (slots_of_textElements h).2]
  exact eq_map_text_of_mapM htexts

/-- Each text has one literal, which is what the four replacements in turn make of it. Whenever a template
and a catalog are rendered, and they are for typed layers, these literals say in them what the designer
wrote. -/
theorem literals_denote :
    (∀ text, Denotes (scriptLiteral text) text ∧
      scriptLiteral text = ofList (.char apostrophe :: escapeInTurn text.toList ++ [.char apostrophe])) ∧
    Function.Injective scriptLiteral ∧
    ∀ {rules roles roles' root name component},
      annotate rules roles root name = .ok (component, roles') → ∀ files assetsImport,
        (WellTypedTree root → (∃ file, template files component assetsImport = .ok file) ∧
          ∃ file, catalog component = .ok file) ∧
        (∀ file, template files component assetsImport = .ok file → DeclaresTexts component file) ∧
        ∀ file, catalog component = .ok file → TellsStories component file := by
  refine ⟨fun text => ⟨denotes_scriptLiteral text, ?_⟩, scriptLiteral_injective, ?_⟩
  · rw [scriptLiteral, flatMap_escapeScriptChar]
  intro rules roles roles' root name component h files assetsImport
  refine ⟨fun hroot => ?_, fun file hfile => ?_, fun file hfile => ?_⟩
  · have htyped : component.WellTyped := by
      obtain ⟨component', roles'', h', htyped⟩ := exists_annotate_eq_ok roles hroot name
      cases h.symm.trans h'
      exact htyped
    exact ⟨template_eq_ok htyped assetsImport, catalog_eq_ok htyped⟩
  · obtain ⟨ps, markup, hps, -, rfl⟩ := exists_script hfile
    obtain ⟨defaults, hdefaults, hps⟩ := bind_eq_ok.1 hps
    cases hps
    obtain ⟨texts, htexts, rfl⟩ := exists_textDefaults h hdefaults
    exact ⟨texts, _, _, htexts, rfl, rfl, says_textDefaults texts⟩
  · obtain ⟨list, hlist, hcatalog⟩ := isCatalog_of_catalog hfile
    obtain ⟨defaults, hdefaults, hlist⟩ := bind_eq_ok.1 hlist
    cases hlist
    obtain ⟨texts, htexts, rfl⟩ := exists_textDefaults h hdefaults
    refine ⟨texts, _, htexts, hcatalog, ?_⟩
    have hclass : List.Forall₂ Property.Says [⟨"className", scriptLiteral "custom-variant"⟩]
        [("className", "custom-variant")] := .cons (says_scriptLiteral _ _) .nil
    have himage : List.Forall₂ Property.Says
        [⟨"imageSrc", scriptLiteral placeholderImage⟩,
          ⟨"imageAlt", scriptLiteral (component.name ++ " image")⟩] (imageTexts component) :=
      .cons (says_scriptLiteral _ _) (.cons (says_scriptLiteral _ _) .nil)
    unfold toldStories
    refine .cons ⟨rfl, says_textDefaults texts⟩ ?_
    cases component.hasAssets with
    | true => exact .cons ⟨rfl, himage⟩ (.cons ⟨rfl, hclass⟩ .nil)
    | false => exact .cons ⟨rfl, hclass⟩ .nil

theorem literals_denote_card : ∃ component roles' file catalogFile,
    annotate .standard [] card "Card" = .ok (component, roles') ∧
      template cardFiles component "../assets" = .ok file ∧ DeclaresTexts component file ∧
      catalog component = .ok catalogFile ∧ TellsStories component catalogFile := by
  obtain ⟨-, -, hfiles⟩ := literals_denote
  have hannotated : ∃ component roles', annotate .standard [] card "Card" = .ok (component, roles') := by
    obtain ⟨component, roles', h, -⟩ := exists_annotate_eq_ok [] wellTypedTree_card "Card"
    exact ⟨component, roles', h⟩
  obtain ⟨component, roles', hcomponent⟩ := hannotated
  obtain ⟨hrendered, hdeclares, htells⟩ := hfiles hcomponent cardFiles "../assets"
  obtain ⟨⟨file, hfile⟩, catalogFile, hcatalog⟩ := hrendered wellTypedTree_card
  exact ⟨component, roles', file, catalogFile, hcomponent, hfile, hdeclares file hfile, hcatalog,
    htells catalogFile hcatalog⟩

end Handoff.Render
