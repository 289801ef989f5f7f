import Handoff.Config.Environment
import Handoff.Config.Validation
import Handoff.Proofs.Design.Typed
import Handoff.Proofs.World.Steady

/-!
What settings are resolved from.

A credential has several sources, and the first of them with anything in it counts. A configuration
whose sections hold what belongs there passes its check; together with both credentials it gives
settings, and without them nothing but the missing credential is found fault with.
-/

namespace Handoff.Config

open Files Numeric

variable {fields inner : Fields} {name : Text} {flag outputRoot : Value} {loaded : Environment}

/-! ### Sources of credentials -/

/-- The first of the values that counts as present, or the last one. -/
def firstOf : List Value → Value
  | [] => .null
  | [value] => value
  | value :: other :: rest => value.orElse (firstOf (other :: rest))

/-- None of the values is a text with anything in it. -/
def LacksText (sources : List Value) : Prop := ∀ s : Text, .text s ∈ sources → s = ""

lemma truthy_orElse (a b : Value) : (a.orElse b).truthy = (a.truthy || b.truthy) := by
  unfold Value.orElse
  cases h : a.truthy <;> simp [h]

lemma orElse_assoc (a b c : Value) : (a.orElse b).orElse c = a.orElse (b.orElse c) := by
  unfold Value.orElse
  cases h : a.truthy <;> simp [h]

lemma truthy_firstOf (sources : List Value) :
    (firstOf sources).truthy = sources.any Value.truthy := by
  fun_induction firstOf sources with
  | case1 => rfl
  | case2 value => simp
  | case3 value other rest ih => rw [truthy_orElse, ih]; rfl

lemma truthy_text (s : Text) : (Value.text s).truthy = true ↔ s ≠ "" := by
  have hempty : s.isEmpty = true ↔ s = "" := by
    rcases s with ⟨_ | ⟨c, rest⟩⟩
    · exact ⟨fun _ => rfl, fun _ => rfl⟩
    · exact ⟨nofun, fun h => by cases congrArg Text.toList h⟩
  rw [Value.truthy, Bool.not_eq_true', ← Bool.not_eq_true, hempty]

/-- Among texts and nulls the first that counts as present does so unless all of them lack text. -/
lemma truthy_firstOf_eq_false {sources : List Value} (h : ∀ value ∈ sources, value.IsTextOrNull) :
    (firstOf sources).truthy = false ↔ LacksText sources := by
  rw [truthy_firstOf, List.any_eq_false]
  constructor
  · intro hall s hmem
    by_contra hs
    exact hall _ hmem ((truthy_text s).2 hs)
  · intro hlacks value hmem htruthy
    rcases h value hmem with rfl | ⟨s, rfl⟩
    · cases htruthy
    · exact (truthy_text s).1 htruthy (hlacks s hmem)

/-- The value of a variable, null without one. -/
def valueIn (loaded : Environment) (name : Text) : Value := (loaded.fields.lookup name).getD .null

lemma isTextOrNull_valueIn (loaded : Environment) (name : Text) :
    (valueIn loaded name).IsTextOrNull := by
  unfold valueIn Environment.fields
  induction loaded with
  | nil => exact Or.inl rfl
  | cons first rest ih =>
    rw [List.map_cons, List.lookup_cons]
    split
    · exact Or.inr ⟨first.2, rfl⟩
    · exact ih

/-- Where a token may come from: the configuration, then the environment. -/
def tokenSources (fields : Fields) (loaded : Environment) : List Value :=
  [fieldIn fields "figma" "personalAccessToken", valueIn loaded "FIGMA_TOKEN"]

/-- Where a file key may come from: the command line, then the configuration, then the
environment. -/
def keySources (flag : Value) (fields : Fields) (loaded : Environment) : List Value :=
  [flag, fieldIn fields "figma" "fileKey", valueIn loaded "FIGMA_FILE_KEY"]

/-! ### Configurations that can be used -/

/-- The fields of a section; none when it is absent. -/
def innerOf (fields : Fields) (name : Text) : Fields :=
  match fields.lookup name with
  | some (.record inner) => inner
  | _ => []

lemma fieldIn_eq (fields : Fields) (sectionName name : Text) :
    fieldIn fields sectionName name = ((innerOf fields sectionName).lookup name).getD .null := by
  unfold fieldIn innerOf
  split <;> simp_all

lemma field_innerOf (fields : Fields) (sectionName name : Text) :
    (Value.record (innerOf fields sectionName)).field name = .ok (fieldIn fields sectionName name) := by
  rw [fieldIn_eq]
  rfl

/-- The section is absent, counts as absent, or is a record. -/
def SectionUsable (fields : Fields) (name : Text) : Prop :=
  ∀ value, fields.lookup name = some value → value.truthy = true → ∃ inner, value = .record inner

/-- What a section is taken for: a record without fields when it counts as absent. -/
def sectionValue (fields : Fields) (name : Text) : Value :=
  ((fields.lookup name).getD .null).orElse (.record [])

lemma sectionOf_eq (fields : Fields) (name : Text) :
    sectionOf (.record fields) name = .ok (sectionValue fields name) := rfl

lemma SectionUsable.sectionValue (h : SectionUsable fields name) :
    sectionValue fields name = .record (innerOf fields name) := by
  unfold Config.sectionValue innerOf Value.orElse
  cases hlookup : fields.lookup name with
  | none => rfl
  | some value =>
    rw [Option.getD_some]
    cases htruthy : value.truthy with
    | true =>
      obtain ⟨inner, rfl⟩ := h value hlookup htruthy
      rfl
    | false =>
      cases value with
      | record inner =>
        cases inner with
        | nil => rfl
        | cons => cases htruthy
      | null | bool | int | double | text | list => rfl

/-- A section that counts as present and is no record has no fields. -/
lemma fields_of_not_usable (h : ¬ SectionUsable fields name) :
    (sectionValue fields name).fields = .error .noSuchField := by
  simp only [SectionUsable, not_forall] at h
  obtain ⟨value, hlookup, htruthy, hno⟩ := h
  rw [sectionValue, Value.orElse, hlookup, Option.getD_some, if_pos htruthy]
  cases value with
  | record inner => exact absurd ⟨inner, rfl⟩ hno
  | null | bool | int | double | text | list => rfl

/-- The value is no number, or a finite one within the range of doubles. -/
def InRange : Value → Prop
  | .int n => (Binary64.ofInt? n).isSome
  | .double x => x.toRat?.isSome
  | _ => True

/-- The sections are records where they are there, credentials and places are texts, and numbers have
doubles. -/
structure WellFormed (fields : Fields) : Prop where
  sections : ∀ name ∈ knownNames, ∀ value, fields.lookup name = some value →
    ∃ inner, value = .record inner
  token : (fieldIn fields "figma" "personalAccessToken").IsTextOrNull
  fileKey : (fieldIn fields "figma" "fileKey").IsTextOrNull
  root : (fieldIn fields "output" "root").IsTextOrNull
  places : ∀ name ∈ (["tokens", "assets", "components", "twig"] : List Text), ∀ value,
    (innerOf fields "output").lookup name = some value → value.IsSomeText
  numbers : ∀ entry ∈ numericFields, InRange (fieldIn fields entry.1 entry.2)

lemma WellFormed.sectionUsable (h : WellFormed fields) (hname : name ∈ knownNames) :
    SectionUsable fields name := fun value hlookup _ => h.sections name hname value hlookup

lemma WellFormed.tokenSources (h : WellFormed fields) (loaded : Environment) :
    ∀ value ∈ tokenSources fields loaded, value.IsTextOrNull := by
  simp only [Config.tokenSources, List.forall_mem_cons]
  exact ⟨h.token, isTextOrNull_valueIn loaded _, List.forall_mem_nil _⟩

lemma WellFormed.keySources (h : WellFormed fields) (hflag : flag.IsTextOrNull)
    (loaded : Environment) : ∀ value ∈ keySources flag fields loaded, value.IsTextOrNull := by
  simp only [Config.keySources, List.forall_mem_cons]
  exact ⟨hflag, h.fileKey, isTextOrNull_valueIn loaded _, List.forall_mem_nil _⟩

/-! ### The parts of the settings -/

lemma directoryAt_eq_ok (h : ∀ value, inner.lookup name = some value → value.IsSomeText)
    (root : Path) (default : Text) :
    ∃ path, directoryAt (.record inner) root name default = .ok path := by
  have htext : ∃ s, ((inner.lookup name).getD (.text default)).asText .wrongType = .ok s := by
    cases hlookup : inner.lookup name with
    | none => exact ⟨default, rfl⟩
    | some value =>
      obtain ⟨s, rfl⟩ := h value hlookup
      exact ⟨s, rfl⟩
  obtain ⟨s, hs⟩ := htext
  have hpath : pathOf ((inner.lookup name).getD (.text default)) = .ok (.parse s) :=
    bind_eq_ok.2 ⟨s, hs, rfl⟩
  exact ⟨root.join (.parse s), bind_eq_ok.2 ⟨_, rfl, bind_eq_ok.2 ⟨_, hpath, rfl⟩⟩⟩

/-- A number in range has a double and an integer part. -/
lemma numberAt?_eq_ok (h : InRange ((inner.lookup name).getD .null)) :
    numberAt? (.record inner) name = .ok none ∨
      ∃ n x k, numberAt? (.record inner) name = .ok (some n) ∧
        n.toBinary64 = .ok x ∧ n.truncate = .ok k := by
  have hfield : (Value.record inner).field name = .ok ((inner.lookup name).getD .null) := rfl
  rw [numberAt?, hfield, ok_bind]
  cases hvalue : (inner.lookup name).getD .null with
  | int n =>
    rw [hvalue] at h
    obtain ⟨x, hx⟩ := Option.isSome_iff_exists.1 h
    exact Or.inr ⟨.int n, x, n, rfl, by rw [Number.toBinary64, hx], rfl⟩
  | double x =>
    rw [hvalue] at h
    cases x with
    | finite value => exact Or.inr ⟨.double (.finite value), _, _, rfl, rfl, rfl⟩
    | negativeZero => exact Or.inr ⟨.double .negativeZero, _, _, rfl, rfl, rfl⟩
    | infinite _ | nan => cases h
  | null | bool | text | list | record => exact Or.inl rfl

lemma doubleAt_eq_ok (h : InRange ((inner.lookup name).getD .null)) (default : Value) :
    ∃ value, doubleAt (.record inner) name default = .ok value := by
  rcases numberAt?_eq_ok h with hnone | ⟨n, x, -, hn, hx, -⟩
  · exact ⟨default, bind_eq_ok.2 ⟨none, hnone, rfl⟩⟩
  · exact ⟨.double x, bind_eq_ok.2 ⟨some n, hn, bind_eq_ok.2 ⟨x, hx, rfl⟩⟩⟩

lemma countAt_eq_ok (h : InRange ((inner.lookup name).getD .null)) (default : Int) :
    ∃ n, countAt (.record inner) name default = .ok n := by
  rcases numberAt?_eq_ok h with hnone | ⟨n, -, k, hn, -, hk⟩
  · exact ⟨max 1 default, bind_eq_ok.2 ⟨none, hnone, rfl⟩⟩
  · exact ⟨max 1 k, bind_eq_ok.2 ⟨some n, hn, bind_eq_ok.2 ⟨k, hk, rfl⟩⟩⟩

/-! ### The settings -/

/-- The root that is given, else that of the output section. -/
def rootValue (output outputRoot : Value) : Except Fault Value :=
  if outputRoot.truthy then .ok outputRoot else output.field "root"

/-- The settings with these credentials, from sections of any shape. -/
def completed (service output exports outputRoot token fileKey : Value) : Except Fault Settings := do
  let root ← rootValue output outputRoot
  let rootDir ← pathOf (root.orElse (.text "."))
  return {
    token
    fileKey
    rootDir
    tokensDir := ← directoryAt output rootDir "tokens" "src/styles"
    assetsDir := ← directoryAt output rootDir "assets" "src/assets/figma"
    componentsDir := ← directoryAt output rootDir "components" "src/components"
    twigDir := ← directoryAt output rootDir "twig" "twig-templates"
    timeout := ← doubleAt service "timeout" (.double (.finite 30))
    batchSize := ← countAt exports "batchSize" 100
    rasterScale := ← doubleAt exports "rasterScale" (.int 2)
    downloadWorkers := ← countAt exports "downloadWorkers" 8 }

/-- With a figma section that can be read the credentials are chosen first. -/
lemma resolve_eq_completed (h : SectionUsable fields "figma") :
    Settings.resolve (.record fields) loaded.fields flag outputRoot =
      if !(firstOf (tokenSources fields loaded)).truthy then .error .noToken
      else if !(firstOf (keySources flag fields loaded)).truthy then .error .noFileKey
      else completed (.record (innerOf fields "figma")) (sectionValue fields "output")
        (sectionValue fields "export") outputRoot (firstOf (tokenSources fields loaded))
        (firstOf (keySources flag fields loaded)) := by
  have hkeys : firstOf (keySources flag fields loaded) =
      (if flag.truthy then flag else fieldIn fields "figma" "fileKey").orElse
        ((loaded.fields.lookup ("FIGMA_FILE_KEY" : Text)).getD .null) := (orElse_assoc ..).symm
  unfold Settings.resolve completed rootValue
  simp only [sectionOf_eq, ok_bind, h.sectionValue, field_innerOf, hkeys, tokenSources, firstOf,
    valueIn]
  generalize Value.orElse (fieldIn fields "figma" "personalAccessToken") _ = token
  cases flag.truthy <;> simp only [if_true, if_false, pure_bind, Bool.false_eq_true]
  all_goals
    generalize Value.orElse _ (Option.getD (loaded.fields.lookup ("FIGMA_FILE_KEY" : Text)) .null) =
      fileKey
    cases token.truthy
    · rfl
    · cases fileKey.truthy
      · rfl
      · cases outputRoot.truthy <;> rfl

/-- The settings with these credentials. -/
def settingsWith (fields : Fields) (outputRoot token fileKey : Value) : Except Fault Settings := do
  let service := Value.record (innerOf fields "figma")
  let output := Value.record (innerOf fields "output")
  let exports := Value.record (innerOf fields "export")
  let rootDir ← pathOf ((outputRoot.orElse (fieldIn fields "output" "root")).orElse (.text "."))
  return {
    token
    fileKey
    rootDir
    tokensDir := ← directoryAt output rootDir "tokens" "src/styles"
    assetsDir := ← directoryAt output rootDir "assets" "src/assets/figma"
    componentsDir := ← directoryAt output rootDir "components" "src/components"
    twigDir := ← directoryAt output rootDir "twig" "twig-templates"
    timeout := ← doubleAt service "timeout" (.double (.finite 30))
    batchSize := ← countAt exports "batchSize" 100
    rasterScale := ← doubleAt exports "rasterScale" (.int 2)
    downloadWorkers := ← countAt exports "downloadWorkers" 8 }

/-- Settings are resolved by choosing the credentials first. -/
lemma resolve_eq (h : WellFormed fields) :
    Settings.resolve (.record fields) loaded.fields flag outputRoot =
      if !(firstOf (tokenSources fields loaded)).truthy then .error .noToken
      else if !(firstOf (keySources flag fields loaded)).truthy then .error .noFileKey
      else settingsWith fields outputRoot (firstOf (tokenSources fields loaded))
        (firstOf (keySources flag fields loaded)) := by
  have hsection (name : Text) (hname : name ∈ knownNames) := (h.sectionUsable hname).sectionValue
  rw [resolve_eq_completed (h.sectionUsable (by decide)), hsection "output" (by decide),
    hsection "export" (by decide)]
  unfold completed settingsWith rootValue
  rw [field_innerOf, Value.orElse.eq_def outputRoot]
  cases outputRoot.truthy <;> rfl

/-- With usable sections there are settings with any credentials. -/
lemma settingsWith_eq_ok (h : WellFormed fields) (hroot : outputRoot.IsTextOrNull)
    (token fileKey : Value) : ∃ settings, settingsWith fields outputRoot token fileKey = .ok settings ∧
      settings.token = token ∧ settings.fileKey = fileKey := by
  have hnumber (entry : Text × Text) (hmem : entry ∈ numericFields) :
      InRange (((innerOf fields entry.1).lookup entry.2).getD .null) := by
    rw [← fieldIn_eq]
    exact h.numbers entry hmem
  obtain ⟨root, hrootText⟩ := (hroot.orElse h.root).orElse_text "." .wrongType
  obtain ⟨tokens, htokens⟩ :=
    directoryAt_eq_ok (h.places "tokens" (by decide)) (.parse root) "src/styles"
  obtain ⟨assets, hassets⟩ :=
    directoryAt_eq_ok (h.places "assets" (by decide)) (.parse root) "src/assets/figma"
  obtain ⟨components, hcomponents⟩ :=
    directoryAt_eq_ok (h.places "components" (by decide)) (.parse root) "src/components"
  obtain ⟨twig, htwig⟩ :=
    directoryAt_eq_ok (h.places "twig" (by decide)) (.parse root) "twig-templates"
  obtain ⟨timeout, htimeout⟩ :=
    doubleAt_eq_ok (hnumber ("figma", "timeout") (by decide)) (.double (.finite 30))
  obtain ⟨batchSize, hbatch⟩ := countAt_eq_ok (hnumber ("export", "batchSize") (by decide)) 100
  obtain ⟨scale, hscale⟩ :=
    doubleAt_eq_ok (hnumber ("export", "rasterScale") (by decide)) (.int 2)
  obtain ⟨workers, hworkers⟩ :=
    countAt_eq_ok (hnumber ("export", "downloadWorkers") (by decide)) 8
  refine ⟨⟨token, fileKey, .parse root, tokens, assets, components, twig, timeout, batchSize, scale,
    workers⟩, ?_, rfl, rfl⟩
  simp only [settingsWith, pathOf, hrootText, htokens, hassets, hcomponents, htwig, htimeout, hbatch,
    hscale, hworkers, ok_bind, pure, Except.pure]

/-- With both credentials there are settings with the first token and the first file key. -/
theorem resolve_eq_ok (h : WellFormed fields) (hflag : flag.IsTextOrNull)
    (hroot : outputRoot.IsTextOrNull) (htoken : ¬ LacksText (tokenSources fields loaded))
    (hkey : ¬ LacksText (keySources flag fields loaded)) :
    ∃ settings, Settings.resolve (.record fields) loaded.fields flag outputRoot = .ok settings ∧
      settings.token = firstOf (tokenSources fields loaded) ∧
      settings.fileKey = firstOf (keySources flag fields loaded) := by
  rw [← truthy_firstOf_eq_false (h.tokenSources loaded), Bool.not_eq_false] at htoken
  rw [← truthy_firstOf_eq_false (h.keySources hflag loaded), Bool.not_eq_false] at hkey
  obtain ⟨settings, hsettings, hcredentials⟩ := settingsWith_eq_ok h hroot
    (firstOf (tokenSources fields loaded)) (firstOf (keySources flag fields loaded))
  refine ⟨settings, ?_, hcredentials⟩
  rw [resolve_eq h, htoken, hkey]
  exact hsettings

/-! ### The configuration file -/

/-- At the path there is nothing, or a file that spells a record with these fields. A file that spells
anything else counts as a record without fields. -/
inductive Holds (w : Workspace) (path : Text) : Fields → Prop
  | missing (h : w.doesExist (.parse path) = .ok false) : Holds w path []
  | spelled {content : ByteArray} {text : String} {fields : Fields}
      (hexists : w.doesExist (.parse path) = .ok true)
      (hread : w.read (.parse path) = .ok content) (htext : String.fromUTF8? content = some text)
      (hjson : Json.read .standard .malformedConfig text = .ok (.record fields)) : Holds w path fields
  | ignored {content : ByteArray} {text : String} {value : Value}
      (hexists : w.doesExist (.parse path) = .ok true)
      (hread : w.read (.parse path) = .ok content) (htext : String.fromUTF8? content = some text)
      (hjson : Json.read .standard .malformedConfig text = .ok value)
      (hvalue : ∀ fields, value ≠ .record fields) : Holds w path []

end Handoff.Config
