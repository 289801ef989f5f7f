import Handoff.Asset.FileName
import Handoff.Proofs.World.Running

/-!
Layers whose fields have the types that the file format gives them.
-/

namespace Handoff

/-- The value is a text. -/
def Value.IsSomeText (value : Value) : Prop := ∃ s, value = .text s

/-- The value is a text or null. -/
def Value.IsTextOrNull (value : Value) : Prop := value = .null ∨ value.IsSomeText

instance : DecidablePred Value.IsTextOrNull := fun value =>
  match value with
  | .null => .isTrue (Or.inl rfl)
  | .text s => .isTrue (Or.inr ⟨s, rfl⟩)
  | .bool _ | .int _ | .double _ | .list _ | .record _ => .isFalse (by rintro (h | ⟨_, h⟩) <;> cases h)

lemma Value.IsTextOrNull.orElse {value other : Value} (h : value.IsTextOrNull)
    (hother : other.IsTextOrNull) : (value.orElse other).IsTextOrNull := by
  unfold Value.orElse
  split
  · exact h
  · exact hother

lemma Value.IsTextOrNull.orElse_text {value : Value} (h : value.IsTextOrNull) (default : Text)
    (fault : Fault) : ∃ s, (value.orElse (.text default)).asText fault = .ok s := by
  rcases h with rfl | ⟨s, rfl⟩
  · exact ⟨default, rfl⟩
  · unfold Value.orElse
    split
    · exact ⟨s, rfl⟩
    · exact ⟨default, rfl⟩

lemma Value.IsTextOrNull.orElse_empty {value : Value} (h : value.IsTextOrNull) (fault : Fault) :
    ∃ s, (value.orElse .emptyText).asText fault = .ok s := h.orElse_text "" fault

lemma Value.IsSomeText.key {value : Value} (h : value.IsSomeText) :
    ∃ s, value = .text s ∧ value.key = .ok (.text s) := by
  obtain ⟨s, rfl⟩ := h
  exact ⟨s, rfl, rfl⟩

/-- Texts are known by their keys. -/
lemma Value.IsSomeText.eq_of_key_eq {value other : Value} (h : value.IsSomeText)
    (hother : other.IsSomeText) (hkey : value.key = other.key) : value = other := by
  obtain ⟨s, rfl⟩ := h
  obtain ⟨s', rfl⟩ := hother
  cases hkey
  rfl

lemma Value.IsSomeText.isOneOf {value : Value} (h : value.IsSomeText) (texts : List Text) :
    ∃ b, value.isOneOf texts = .ok b := by
  obtain ⟨s, rfl⟩ := h
  exact ⟨texts.contains s, rfl⟩

namespace Design

open Asset

/-- An export setting: a record whose format is a text if there is any. -/
def IsExportSetting (setting : Value) : Prop :=
  ∃ fields, setting = .record fields ∧ ((fields.lookup ("format" : Text)).getD .null).IsTextOrNull

/-- The fields that decide about the export of a layer have their types. -/
structure Layer.ExportTyped (layer : Layer) : Prop where
  id : layer.id.IsSomeText
  name : layer.name.IsTextOrNull
  typeName : layer.typeName.IsSomeText
  exportSettings : ∀ setting ∈ layer.exportSettings, IsExportSetting setting

/-- A layer without any further fields. -/
def plainLayer (id name type : Text) : Layer where
  id := .text id
  name := .text name
  typeName := .text type
  width := .null
  height := .null
  fills := []
  layout := none
  exportSettings := []
  characters := .emptyText
  typography := []
  cornerRadius := .null
  cornerRadii := none
  backgroundColor := .null

/-- A layer without any further fields but its children, as a design file gives it. -/
def layerValue (id name type : Text) (children : List Value) : Value :=
  .record [("id", .text id), ("name", .text name), ("type", .text type),
    ("children", .list children)]

namespace Layer.ExportTyped

variable {layer : Layer}

lemma of_plain (id name type : Text) : (plainLayer id name type).ExportTyped :=
  ⟨⟨id, rfl⟩, Or.inr ⟨name, rfl⟩, ⟨type, rfl⟩, nofun⟩

lemma isVector (h : layer.ExportTyped) : ∃ b, layer.isVector = .ok b := h.typeName.isOneOf _

lemma isAssetCandidate (h : layer.ExportTyped) : ∃ b, layer.isAssetCandidate = .ok b := by
  unfold Layer.isAssetCandidate
  split
  · exact ⟨true, rfl⟩
  · exact h.isVector

lemma formatOfSetting {setting : Value} (h : IsExportSetting setting) :
    ∃ format, Design.formatOfSetting setting = .ok format := by
  obtain ⟨fields, rfl, hformat⟩ := h
  obtain ⟨s, hs⟩ := hformat.orElse_empty .noSuchField
  refine ⟨if namesVectorFormat s then .svg else .png, ?_⟩
  simp only [Design.formatOfSetting, Value.field, Value.fields, ok_bind, pure, Except.pure, hs]

/-- A typed layer has a format exactly when it is a candidate. -/
lemma exportFormat (h : layer.ExportTyped) : ∃ format, layer.exportFormat? = .ok format ∧
    (format.isSome ↔ layer.isAssetCandidate = .ok true) := by
  obtain ⟨b, hb⟩ := h.isVector
  unfold Layer.exportFormat? Layer.isAssetCandidate
  cases himage : layer.hasImageFill with
  | true => exact ⟨some .png, rfl, by simp⟩
  | false =>
    rw [hb]
    cases b with
    | true => exact ⟨some .svg, rfl, by simp⟩
    | false =>
      cases hsettings : layer.exportSettings with
      | nil => exact ⟨none, rfl, by simp⟩
      | cons setting rest =>
        obtain ⟨format, hf⟩ := formatOfSetting (h.exportSettings setting (by simp [hsettings]))
        refine ⟨some format, ?_, by simp⟩
        simp [hf, pure, Except.pure]

lemma fileName (h : layer.ExportTyped) (format : ExportFormat) :
    ∃ file, Asset.fileName layer format = .ok file := by
  obtain ⟨s, hs⟩ := h.name.orElse_empty .noSuchField
  obtain ⟨id, hid⟩ := h.id
  have hslug : Naming.slugOf layer.name = .ok (Text.slug s) := bind_eq_ok.2 ⟨s, hs, rfl⟩
  have hfileId : fileIdOf layer.id = .ok (fileId id) := by rw [hid]; rfl
  exact ⟨_, bind_eq_ok.2 ⟨_, hslug, bind_eq_ok.2 ⟨_, hfileId, rfl⟩⟩⟩

end Layer.ExportTyped

end Design

end Handoff
