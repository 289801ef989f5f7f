import Handoff.Proofs.Config.Resolving

/-!
What becomes of a configuration of any shape.

With a figma section that can be read, resolving refuses a configuration exactly when a credential is
missing. Otherwise the settings have the fields that can be used, and defaults in place of numbers that
are none. What is in the way then: an output or export section that is no record, a place that is no
text, an integer beyond the doubles, and a count that is not finite.
-/

namespace Handoff.Config

open Files Numeric

variable {fields inner : Fields} {name : Text} {value flag outputRoot : Value} {loaded : Environment}

/-! ### What a field is taken for -/

/-- The number that a value is. -/
def numberOf : Value → Option Number
  | .int n => some (.int n)
  | .double x => some (.double x)
  | _ => none

/-- A field taken as a number: what is made of the number that it holds, else the default. -/
inductive Takes {α : Type} (value : Value) (convert : Number → Except Fault α) (default : α) : α → Prop
  | number {n : Number} {a : α} (h : numberOf value = some n) (ha : convert n = .ok a) :
    Takes value convert default a
  | default (h : numberOf value = none) : Takes value convert default default

/-- A number as a double. -/
def asDouble (n : Number) : Except Fault Value := n.toBinary64.map .double

/-- A number as a count: its integer part, and at least 1. -/
def asCount (n : Number) : Except Fault Int := n.truncate.map (max 1)

/-- A field taken as a place below a root: the text that it holds, or the default when it is absent. -/
inductive TakesPlace (inner : Fields) (name default : Text) (root : Path) : Path → Prop
  | text {s : Text} (h : inner.lookup name = some (.text s)) :
    TakesPlace inner name default root (root.join (.parse s))
  | default (h : inner.lookup name = none) :
    TakesPlace inner name default root (root.join (.parse default))

lemma takes_iff {α : Type} {convert : Number → Except Fault α} {default result : α} :
    (match numberOf value with
      | some n => convert n
      | none => .ok default) = .ok result ↔ Takes value convert default result := by
  cases hnumber : numberOf value with
  | none =>
    refine ⟨fun h => ?_, fun h => ?_⟩
    · cases h
      exact .default hnumber
    · cases h with
      | number h => rw [hnumber] at h; cases h
      | default => rfl
  | some n =>
    refine ⟨fun h => .number hnumber h, fun h => ?_⟩
    cases h with
    | number h ha =>
      rw [hnumber] at h
      cases h
      exact ha
    | default h => rw [hnumber] at h; cases h

lemma Takes.pos {default n : Int} (h : Takes value asCount default n) (hdefault : 1 ≤ default) : 1 ≤ n := by
  cases h with
  | default => exact hdefault
  | @number m _ h ha =>
    unfold asCount at ha
    rcases hk : m.truncate with fault | k <;> rw [hk] at ha <;> cases ha
    exact Int.le_max_left ..

lemma numberAt?_eq (inner : Fields) (name : Text) :
    numberAt? (.record inner) name = .ok (numberOf ((inner.lookup name).getD .null)) := by
  have hfield : (Value.record inner).field name = .ok ((inner.lookup name).getD .null) := rfl
  rw [numberAt?, hfield, ok_bind]
  cases (inner.lookup name).getD .null <;> rfl

lemma doubleAt_eq_ok_iff {sectionName : Text} {default result : Value} :
    doubleAt (.record (innerOf fields sectionName)) name default = .ok result ↔
      Takes (fieldIn fields sectionName name) asDouble default result := by
  rw [← takes_iff, doubleAt, numberAt?_eq, ok_bind, ← fieldIn_eq]
  rcases numberOf (fieldIn fields sectionName name) with _ | n
  · rfl
  · simp only [asDouble]
    rcases n.toBinary64 with _ | _ <;> rfl

lemma countAt_eq_ok_iff {sectionName : Text} {default result : Int} (hdefault : 1 ≤ default) :
    countAt (.record (innerOf fields sectionName)) name default = .ok result ↔
      Takes (fieldIn fields sectionName name) asCount default result := by
  rw [← takes_iff, countAt, numberAt?_eq, ok_bind, ← fieldIn_eq]
  rcases numberOf (fieldIn fields sectionName name) with _ | n
  · rw [Int.max_eq_right hdefault]
    rfl
  · simp only [asCount]
    rcases n.truncate with _ | _ <;> rfl

lemma pathOf_eq_ok_iff {path : Path} : pathOf value = .ok path ↔ ∃ s, value = .text s ∧ path = .parse s := by
  constructor
  · intro h
    cases value with
    | text s =>
      cases h
      exact ⟨s, rfl, rfl⟩
    | null | bool | int | double | list | record => cases h
  · rintro ⟨s, rfl, rfl⟩
    rfl

lemma directoryAt_eq_ok_iff (root path : Path) (default : Text) :
    directoryAt (.record inner) root name default = .ok path ↔
      TakesPlace inner name default root path := by
  have hfield : (Value.record inner).field? name = .ok (inner.lookup name) := rfl
  rw [directoryAt, hfield, ok_bind]
  cases hlookup : inner.lookup name with
  | none =>
    refine ⟨fun h => ?_, fun h => ?_⟩
    · cases h
      exact .default hlookup
    · cases h with
      | text h => rw [hlookup] at h; cases h
      | default => rfl
  | some value =>
    refine ⟨fun h => ?_, fun h => ?_⟩
    · cases value with
      | text s =>
        cases h
        exact .text hlookup
      | null | bool | int | double | list | record => cases h
    · cases h with
      | text h =>
        rw [hlookup] at h
        cases h
        rfl
      | default h => rw [hlookup] at h; cases h

/-! ### The settings -/

/-- The settings are those that a configuration gives. -/
structure Settled (fields : Fields) (outputRoot : Value) (settings : Settings) : Prop where
  rootDir : ∃ s, (outputRoot.orElse (fieldIn fields "output" "root")).orElse (.text ".") = .text s ∧
    settings.rootDir = .parse s
  tokensDir : TakesPlace (innerOf fields "output") "tokens" "src/styles" settings.rootDir
    settings.tokensDir
  assetsDir : TakesPlace (innerOf fields "output") "assets" "src/assets/figma" settings.rootDir
    settings.assetsDir
  componentsDir : TakesPlace (innerOf fields "output") "components" "src/components" settings.rootDir
    settings.componentsDir
  twigDir : TakesPlace (innerOf fields "output") "twig" "twig-templates" settings.rootDir
    settings.twigDir
  timeout : Takes (fieldIn fields "figma" "timeout") asDouble (.double (.finite 30)) settings.timeout
  batchSize : Takes (fieldIn fields "export" "batchSize") asCount 100 settings.batchSize
  rasterScale : Takes (fieldIn fields "export" "rasterScale") asDouble (.int 2) settings.rasterScale
  downloadWorkers : Takes (fieldIn fields "export" "downloadWorkers") asCount 8 settings.downloadWorkers

section

variable {settings : Settings} {token fileKey : Value}

/-- A section from which a place or a count was read can be used. -/
lemma usable_of_fields {fs : Fields} (h : (sectionValue fields name).fields = .ok fs) :
    SectionUsable fields name := by
  by_contra hno
  rw [fields_of_not_usable hno] at h
  cases h

lemma usable_of_directoryAt {root path : Path} {place default : Text}
    (h : directoryAt (sectionValue fields name) root place default = .ok path) :
    SectionUsable fields name := by
  obtain ⟨found, hfound, -⟩ := bind_eq_ok.1 h
  obtain ⟨fs, hfields, -⟩ := bind_eq_ok.1 hfound
  exact usable_of_fields hfields

lemma usable_of_countAt {n default : Int} {field : Text}
    (h : countAt (sectionValue fields name) field default = .ok n) : SectionUsable fields name := by
  obtain ⟨found, hfound, -⟩ := bind_eq_ok.1 h
  obtain ⟨value, hvalue, -⟩ := bind_eq_ok.1 hfound
  obtain ⟨fs, hfields, -⟩ := bind_eq_ok.1 hvalue
  exact usable_of_fields hfields

/-- Which settings there are with these credentials. -/
lemma completed_eq_ok_iff : completed (.record (innerOf fields "figma")) (sectionValue fields "output")
      (sectionValue fields "export") outputRoot token fileKey = .ok settings ↔
    (SectionUsable fields "output" ∧ SectionUsable fields "export") ∧
      Settled fields outputRoot settings ∧ settings.token = token ∧ settings.fileKey = fileKey := by
  have hroot (houtput : SectionUsable fields "output") :
      rootValue (sectionValue fields "output") outputRoot =
        .ok (outputRoot.orElse (fieldIn fields "output" "root")) := by
    rw [rootValue, houtput.sectionValue, field_innerOf, Value.orElse]
    cases outputRoot.truthy <;> rfl
  constructor
  · intro h
    obtain ⟨root, hr, h⟩ := bind_eq_ok.1 h
    obtain ⟨rootDir, hrootDir, h⟩ := bind_eq_ok.1 h
    obtain ⟨tokensDir, htokens, h⟩ := bind_eq_ok.1 h
    obtain ⟨assetsDir, hassets, h⟩ := bind_eq_ok.1 h
    obtain ⟨componentsDir, hcomponents, h⟩ := bind_eq_ok.1 h
    obtain ⟨twigDir, htwig, h⟩ := bind_eq_ok.1 h
    obtain ⟨timeout, htimeout, h⟩ := bind_eq_ok.1 h
    obtain ⟨batchSize, hbatch, h⟩ := bind_eq_ok.1 h
    obtain ⟨rasterScale, hscale, h⟩ := bind_eq_ok.1 h
    obtain ⟨downloadWorkers, hworkers, h⟩ := bind_eq_ok.1 h
    cases h
    have houtput := usable_of_directoryAt htokens
    have hexport := usable_of_countAt hbatch
    rw [hroot houtput] at hr
    cases hr
    rw [houtput.sectionValue, directoryAt_eq_ok_iff] at htokens hassets hcomponents htwig
    rw [hexport.sectionValue, countAt_eq_ok_iff (by decide)] at hbatch hworkers
    rw [hexport.sectionValue, doubleAt_eq_ok_iff] at hscale
    rw [doubleAt_eq_ok_iff] at htimeout
    exact ⟨⟨houtput, hexport⟩, ⟨pathOf_eq_ok_iff.1 hrootDir, htokens, hassets, hcomponents, htwig,
      htimeout, hbatch, hscale, hworkers⟩, rfl, rfl⟩
  · rintro ⟨⟨houtput, hexport⟩, h, rfl, rfl⟩
    have hrootDir := pathOf_eq_ok_iff.2 h.rootDir
    have htokens := (directoryAt_eq_ok_iff ..).2 h.tokensDir
    have hassets := (directoryAt_eq_ok_iff ..).2 h.assetsDir
    have hcomponents := (directoryAt_eq_ok_iff ..).2 h.componentsDir
    have htwig := (directoryAt_eq_ok_iff ..).2 h.twigDir
    have htimeout := doubleAt_eq_ok_iff.2 h.timeout
    have hbatch := (countAt_eq_ok_iff (by decide)).2 h.batchSize
    have hscale := doubleAt_eq_ok_iff.2 h.rasterScale
    have hworkers := (countAt_eq_ok_iff (by decide)).2 h.downloadWorkers
    rw [completed, hroot houtput, houtput.sectionValue, hexport.sectionValue]
    simp only [ok_bind, hrootDir, htokens, hassets, hcomponents, htwig, htimeout, hbatch, hscale,
      hworkers, pure, Except.pure]

end

/-! ### When there are settings -/

/-- What is read besides the figma section can be used: the other sections are records, the root and the
places are texts, numbers taken as doubles have one, and counts are finite. -/
structure Usable (fields : Fields) (outputRoot : Value) : Prop where
  output : SectionUsable fields "output"
  exports : SectionUsable fields "export"
  root : ((outputRoot.orElse (fieldIn fields "output" "root")).orElse (.text ".")).IsSomeText
  places : ∀ name ∈ (["tokens", "assets", "components", "twig"] : List Text), ∀ value,
    (innerOf fields "output").lookup name = some value → value.IsSomeText
  doubles : ∀ entry ∈ ([("figma", "timeout"), ("export", "rasterScale")] : List (Text × Text)), ∀ n,
    fieldIn fields entry.1 entry.2 = .int n → (Binary64.ofInt? n).isSome
  counts : ∀ name ∈ (["batchSize", "downloadWorkers"] : List Text), ∀ x,
    fieldIn fields "export" name = .double x → x.toRat?.isSome

lemma exists_takesPlace_iff (root : Path) (default : Text) :
    (∃ path, TakesPlace inner name default root path) ↔
      ∀ value, inner.lookup name = some value → value.IsSomeText := by
  constructor
  · rintro ⟨path, h⟩ value hlookup
    cases h with
    | text h =>
      rw [hlookup] at h
      exact ⟨_, Option.some.inj h⟩
    | default h =>
      rw [hlookup] at h
      cases h
  · intro h
    cases hlookup : inner.lookup name with
    | none => exact ⟨_, .default hlookup⟩
    | some value =>
      obtain ⟨s, rfl⟩ := h value hlookup
      exact ⟨_, .text hlookup⟩

lemma exists_takes_iff {α : Type} {convert : Number → Except Fault α} (default : α) :
    (∃ a, Takes value convert default a) ↔ ∀ n, numberOf value = some n → ∃ a, convert n = .ok a := by
  constructor
  · rintro ⟨a, h⟩ n hn
    cases h with
    | number h ha =>
      rw [hn] at h
      cases h
      exact ⟨_, ha⟩
    | default h =>
      rw [hn] at h
      cases h
  · intro h
    cases hn : numberOf value with
    | none => exact ⟨_, .default hn⟩
    | some n =>
      obtain ⟨a, ha⟩ := h n hn
      exact ⟨a, .number hn ha⟩

lemma exists_takesDouble_iff (default : Value) : (∃ a, Takes value asDouble default a) ↔
    ∀ n, value = .int n → (Binary64.ofInt? n).isSome := by
  rw [exists_takes_iff]
  cases value with
  | int n =>
    simp only [numberOf, Option.some.injEq, forall_eq', Value.int.injEq, asDouble, Number.toBinary64]
    cases Binary64.ofInt? n <;> simp [Except.map]
  | double x => simp [numberOf, asDouble, Number.toBinary64, Except.map]
  | null | bool | text | list | record => simp [numberOf]

lemma exists_takesCount_iff (default : Int) : (∃ a, Takes value asCount default a) ↔
    ∀ x, value = .double x → x.toRat?.isSome := by
  rw [exists_takes_iff]
  cases value with
  | int n => simp [numberOf, asCount, Number.truncate, Except.map]
  | double x =>
    simp only [numberOf, Option.some.injEq, forall_eq', Value.double.injEq, asCount]
    cases x <;>
      simp [Number.truncate, Binary64.truncate, Binary64.toIntBy, Except.map, Binary64.toRat?]
  | null | bool | text | list | record => simp [numberOf]

lemma usable_iff : Usable fields outputRoot ↔
    (SectionUsable fields "output" ∧ SectionUsable fields "export") ∧
      ∃ settings, Settled fields outputRoot settings := by
  constructor
  · intro h
    obtain ⟨s, hroot⟩ := h.root
    have hplace (name : Text) (hname : name ∈ (["tokens", "assets", "components", "twig"] : List Text))
        (default : Text) := (exists_takesPlace_iff (.parse s) default).2 (h.places name hname)
    obtain ⟨tokensDir, htokens⟩ := hplace "tokens" (by decide) "src/styles"
    obtain ⟨assetsDir, hassets⟩ := hplace "assets" (by decide) "src/assets/figma"
    obtain ⟨componentsDir, hcomponents⟩ := hplace "components" (by decide) "src/components"
    obtain ⟨twigDir, htwig⟩ := hplace "twig" (by decide) "twig-templates"
    obtain ⟨timeout, htimeout⟩ := (exists_takesDouble_iff (.double (.finite 30))).2
      (h.doubles ("figma", "timeout") (by decide))
    obtain ⟨rasterScale, hscale⟩ := (exists_takesDouble_iff (.int 2)).2
      (h.doubles ("export", "rasterScale") (by decide))
    obtain ⟨batchSize, hbatch⟩ := (exists_takesCount_iff 100).2 (h.counts "batchSize" (by decide))
    obtain ⟨downloadWorkers, hworkers⟩ :=
      (exists_takesCount_iff 8).2 (h.counts "downloadWorkers" (by decide))
    exact ⟨⟨h.output, h.exports⟩, ⟨.null, .null, .parse s, tokensDir, assetsDir, componentsDir, twigDir,
      timeout, batchSize, rasterScale, downloadWorkers⟩, ⟨s, hroot, rfl⟩, htokens, hassets, hcomponents,
      htwig, htimeout, hbatch, hscale, hworkers⟩
  · rintro ⟨⟨houtput, hexport⟩, settings, h⟩
    obtain ⟨s, hroot, -⟩ := h.rootDir
    refine ⟨houtput, hexport, ⟨s, hroot⟩, ?_, ?_, ?_⟩
    · simp only [List.forall_mem_cons]
      exact ⟨(exists_takesPlace_iff ..).1 ⟨_, h.tokensDir⟩, (exists_takesPlace_iff ..).1 ⟨_, h.assetsDir⟩,
        (exists_takesPlace_iff ..).1 ⟨_, h.componentsDir⟩, (exists_takesPlace_iff ..).1 ⟨_, h.twigDir⟩,
        List.forall_mem_nil _⟩
    · simp only [List.forall_mem_cons]
      exact ⟨(exists_takesDouble_iff _).1 ⟨_, h.timeout⟩, (exists_takesDouble_iff _).1 ⟨_, h.rasterScale⟩,
        List.forall_mem_nil _⟩
    · simp only [List.forall_mem_cons]
      exact ⟨(exists_takesCount_iff _).1 ⟨_, h.batchSize⟩,
        (exists_takesCount_iff _).1 ⟨_, h.downloadWorkers⟩, List.forall_mem_nil _⟩

/-- There are settings with any credentials exactly when everything else that is read can be used. -/
lemma exists_completed_iff (token fileKey : Value) :
    (∃ settings, completed (.record (innerOf fields "figma")) (sectionValue fields "output")
      (sectionValue fields "export") outputRoot token fileKey = .ok settings) ↔
        Usable fields outputRoot := by
  simp only [completed_eq_ok_iff, usable_iff]
  constructor
  · rintro ⟨settings, hsections, hsettled, -⟩
    exact ⟨hsections, settings, hsettled⟩
  · rintro ⟨hsections, settings, h⟩
    exact ⟨{ settings with token, fileKey }, hsections, ⟨h.rootDir, h.tokensDir, h.assetsDir,
      h.componentsDir, h.twigDir, h.timeout, h.batchSize, h.rasterScale, h.downloadWorkers⟩, rfl, rfl⟩

/-! ### Faults -/

/-- If the step fails, then with one of these faults. -/
def FailsOnly {α : Type} (faults : List Fault) (step : Except Fault α) : Prop :=
  ∀ fault, step = .error fault → fault ∈ faults

/-- The faults of values that cannot be used. -/
def shapeFaults : List Fault :=
  [.noSuchField, .wrongType, .integerTooLarge, .nanToInteger, .infinityToInteger]

section

variable {α β : Type} {faults : List Fault} {step : Except Fault α} {next : α → Except Fault β}

lemma FailsOnly.ok (a : α) : FailsOnly faults (.ok a) := nofun

lemma FailsOnly.bind (h : FailsOnly faults step) (hn : ∀ a, FailsOnly faults (next a)) :
    FailsOnly faults (step >>= next) := by
  intro fault hf
  rcases bind_eq_error.1 hf with hf | ⟨a, -, hf⟩
  · exact h fault hf
  · exact hn a fault hf

lemma failsOnly_fields (value : Value) : FailsOnly shapeFaults value.fields := by
  intro fault h
  cases value <;> cases h <;> decide

lemma failsOnly_field (value : Value) (name : Text) : FailsOnly shapeFaults (value.field name) :=
  (failsOnly_fields value).bind fun _ => .ok _

lemma failsOnly_pathOf (value : Value) : FailsOnly shapeFaults (pathOf value) := by
  intro fault h
  cases value <;> cases h <;> decide

lemma failsOnly_directoryAt (output : Value) (root : Path) (name default : Text) :
    FailsOnly shapeFaults (directoryAt output root name default) :=
  ((failsOnly_fields output).bind fun _ => .ok _).bind fun _ => (failsOnly_pathOf _).bind fun _ => .ok _

lemma failsOnly_numberAt? (fields : Value) (name : Text) :
    FailsOnly shapeFaults (numberAt? fields name) := by
  refine (failsOnly_field fields name).bind fun value => ?_
  cases value <;> exact .ok _

lemma failsOnly_toBinary64 (n : Number) : FailsOnly shapeFaults n.toBinary64 := by
  intro fault h
  cases n with
  | int n =>
    rw [Number.toBinary64] at h
    split at h <;> cases h
    decide
  | double x => cases h

lemma failsOnly_truncate (n : Number) : FailsOnly shapeFaults n.truncate := by
  intro fault h
  cases n with
  | int n => cases h
  | double x => cases x <;> cases h <;> decide

lemma failsOnly_doubleAt (fields : Value) (name : Text) (default : Value) :
    FailsOnly shapeFaults (doubleAt fields name default) := by
  refine (failsOnly_numberAt? fields name).bind fun number => ?_
  cases number with
  | none => exact .ok _
  | some n => exact (failsOnly_toBinary64 n).bind fun _ => .ok _

lemma failsOnly_countAt (fields : Value) (name : Text) (default : Int) :
    FailsOnly shapeFaults (countAt fields name default) := by
  refine (failsOnly_numberAt? fields name).bind fun number => ?_
  cases number with
  | none => exact .ok _
  | some n => exact (failsOnly_truncate n).bind fun _ => .ok _

/-- With both credentials only values that cannot be used are in the way. -/
lemma failsOnly_completed (service output exports outputRoot token fileKey : Value) :
    FailsOnly shapeFaults (completed service output exports outputRoot token fileKey) := by
  have hroot : FailsOnly shapeFaults (rootValue output outputRoot) := by
    unfold rootValue
    split
    · exact .ok _
    · exact failsOnly_field output _
  exact hroot.bind fun _ => (failsOnly_pathOf _).bind fun rootDir =>
    (failsOnly_directoryAt output rootDir _ _).bind fun _ =>
    (failsOnly_directoryAt output rootDir _ _).bind fun _ =>
    (failsOnly_directoryAt output rootDir _ _).bind fun _ =>
    (failsOnly_directoryAt output rootDir _ _).bind fun _ =>
    (failsOnly_doubleAt service _ _).bind fun _ => (failsOnly_countAt exports _ _).bind fun _ =>
    (failsOnly_doubleAt exports _ _).bind fun _ => (failsOnly_countAt exports _ _).bind fun _ => .ok _

end

/-! ### The outcome -/

/-- None of the values counts as present. -/
def Lacks (sources : List Value) : Prop := ∀ value ∈ sources, value.truthy = false

lemma truthy_firstOf_eq_false_iff {sources : List Value} :
    (firstOf sources).truthy = false ↔ Lacks sources := by
  rw [truthy_firstOf, List.any_eq_false]
  exact forall₂_congr fun _ _ => Bool.not_eq_true _ ▸ Iff.rfl

/-- A figma section that cannot be read is found fault with before anything else. -/
lemma resolve_of_not_usable (h : ¬ SectionUsable fields "figma") :
    Settings.resolve (.record fields) loaded.fields flag outputRoot = .error .noSuchField := by
  unfold Settings.resolve
  simp only [sectionOf_eq, ok_bind]
  rw [Value.field, fields_of_not_usable h]
  rfl

/-- **What becomes of a configuration.** With a figma section that can be read, a missing credential is
found fault with, and nothing else is while one is missing. With both credentials there are settings
exactly when everything else that is read can be used. The counts of settings are at least 1, and every
field that holds nothing usable has given way to its default. -/
theorem resolve_outcomes (fields : Fields) (loaded : Environment) (flag outputRoot : Value) :
    let outcome := Settings.resolve (.record fields) loaded.fields flag outputRoot
    (outcome = .error .noToken ↔ SectionUsable fields "figma" ∧ Lacks (tokenSources fields loaded)) ∧
    (outcome = .error .noFileKey ↔ SectionUsable fields "figma" ∧
      ¬ Lacks (tokenSources fields loaded) ∧ Lacks (keySources flag fields loaded)) ∧
    ((∃ settings, outcome = .ok settings) ↔ SectionUsable fields "figma" ∧
      ¬ Lacks (tokenSources fields loaded) ∧ ¬ Lacks (keySources flag fields loaded) ∧
        Usable fields outputRoot) ∧
    (∀ settings, outcome = .ok settings → 1 ≤ settings.batchSize ∧ 1 ≤ settings.downloadWorkers ∧
      settings.token = firstOf (tokenSources fields loaded) ∧
      settings.fileKey = firstOf (keySources flag fields loaded) ∧
      Settled fields outputRoot settings) ∧
    ∀ fault, outcome = .error fault → fault = .noToken ∨ fault = .noFileKey ∨ fault ∈ shapeFaults := by
  intro outcome
  by_cases hfigma : SectionUsable fields "figma"
  · have houtcome : outcome = _ := resolve_eq_completed hfigma
    rw [houtcome, ← truthy_firstOf_eq_false_iff, ← truthy_firstOf_eq_false_iff]
    cases htoken : (firstOf (tokenSources fields loaded)).truthy with
    | false => simp [hfigma]
    | true =>
      cases hkey : (firstOf (keySources flag fields loaded)).truthy with
      | false => simp [hfigma]
      | true =>
        have hfails := failsOnly_completed (.record (innerOf fields "figma"))
          (sectionValue fields "output") (sectionValue fields "export") outputRoot
          (firstOf (tokenSources fields loaded)) (firstOf (keySources flag fields loaded))
        simp only [Bool.not_true, Bool.false_eq_true, if_false, Bool.true_eq_false, not_false_eq_true,
          and_false, iff_false, true_and, hfigma, exists_completed_iff]
        refine ⟨fun h => absurd (hfails _ h) (by decide), fun h => absurd (hfails _ h) (by decide),
          fun settings h => ?_, fun fault h => Or.inr (Or.inr (hfails _ h))⟩
        obtain ⟨-, hsettled, htoken, hkey⟩ := completed_eq_ok_iff.1 h
        exact ⟨hsettled.batchSize.pos (by decide), hsettled.downloadWorkers.pos (by decide), htoken,
          hkey, hsettled⟩
  · have houtcome : outcome = .error .noSuchField := resolve_of_not_usable hfigma
    rw [houtcome]
    simp [hfigma, shapeFaults]

/-- A batch size beyond all numbers is no count, and the default does not take its place. -/
theorem resolve_endlessBatch : Settings.resolve
    (.record [("export", .record [("batchSize", .double (.infinite false))])])
    (Environment.fields [("FIGMA_TOKEN", "t"), ("FIGMA_FILE_KEY", "KEY")]) .null .null =
      .error .infinityToInteger := rfl

end Handoff.Config
