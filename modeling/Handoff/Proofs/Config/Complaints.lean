import Handoff.Proofs.Config.Resolving
import Handoff.Proofs.Data.Table

/-!
What the check of a configuration complains about.

A complaint is one thing that is wrong: a section or a field that is not known, a section that is no
record, a number that is none, a batch beyond the service's limit. The check warns of every complaint
that applies, once, and of nothing else. What it does not survive is a batch size asked of an export
section that counts as present and is no record.
-/

namespace Handoff.Config

variable {fields : Fields}

/-- One thing that is wrong with a configuration. -/
inductive Complaint where
  | unknownSection (name : Text)
  | noRecord (sectionName : Text) (value : Value)
  | unknownField (sectionName name : Text)
  | noNumber (sectionName name : Text) (value : Value)
  | largeBatch (size : Int)

namespace Complaint

/-- The warning about it. -/
def message : Complaint → Message
  | unknownSection name => warning ("未知頂層欄位 '" ++ name ++ "'" ++ knownText knownNames)
  | noRecord sectionName value =>
    warning ("[" ++ sectionName ++ "] 應為 JSON 物件，目前是 " ++ value.typeName)
  | unknownField sectionName name =>
    warning ("[" ++ sectionName ++ "] 未知欄位 '" ++ name ++ "'" ++
      knownText ((knownSections.lookup sectionName).getD []))
  | noNumber sectionName name value =>
    warning (sectionName ++ "." ++ name ++ " 應為數字，目前是 " ++ value.typeName)
  | largeBatch size =>
    warning ("export.batchSize " ++ toString size ++ " 超過建議上限 100，Figma 可能拒絕過長的 ids 參數")

/-- The complaint is about a configuration with these fields. -/
inductive Applies (fields : Fields) : Complaint → Prop
  | unknownSection {name : Text} {value : Value} (h : fields.lookup name = some value) (hunknown : name ∉ knownNames) :
    Applies fields (unknownSection name)
  | noRecord {sectionName : Text} {value : Value} (hknown : sectionName ∈ knownNames)
    (h : fields.lookup sectionName = some value) (hvalue : ∀ inner, value ≠ .record inner) :
    Applies fields (noRecord sectionName value)
  | unknownField {sectionName known inner name value} (hknown : (sectionName, known) ∈ knownSections)
    (h : fields.lookup sectionName = some (.record inner)) (hfield : inner.lookup name = some value)
    (hunknown : name ∉ known) : Applies fields (unknownField sectionName name)
  | noNumber {sectionName name inner value} (hknown : (sectionName, name) ∈ numericFields)
    (h : fields.lookup sectionName = some (.record inner)) (hfield : inner.lookup name = some value)
    (hnull : value ≠ .null) (hint : ∀ n, value ≠ .int n) (hdouble : ∀ x, value ≠ .double x) :
    Applies fields (noNumber sectionName name value)
  | largeBatch {inner : Fields} {size : Int}
    (h : fields.lookup ("export" : Text) = some (.record inner))
    (hfield : inner.lookup ("batchSize" : Text) = some (.int size)) (hlarge : 100 < size) :
    Applies fields (largeBatch size)

end Complaint

/-! ### Messages that tell complaints -/

/-- The messages tell each complaint of a kind once, and nothing else. -/
def Tells (kind : Complaint → Prop) (messages : List Message) : Prop :=
  ∃ complaints : List Complaint, complaints.Nodup ∧ (∀ c, c ∈ complaints ↔ kind c) ∧
    messages = complaints.map Complaint.message

namespace Tells

variable {kind other : Complaint → Prop} {messages more : List Message}

lemma none (h : ∀ c, ¬ kind c) : Tells kind [] := ⟨[], List.nodup_nil, by simp [h], rfl⟩

lemma one (c : Complaint) (h : ∀ d, kind d ↔ d = c) : Tells kind [c.message] :=
  ⟨[c], List.nodup_singleton c, by simp [h], rfl⟩

lemma congr (h : Tells kind messages) (hk : ∀ c, other c ↔ kind c) : Tells other messages := by
  obtain ⟨complaints, hnodup, hmem, hmessages⟩ := h
  exact ⟨complaints, hnodup, fun c => (hmem c).trans (hk c).symm, hmessages⟩

lemma append (h : Tells kind messages) (h' : Tells other more) (hapart : ∀ c, kind c → ¬ other c) :
    Tells (fun c => kind c ∨ other c) (messages ++ more) := by
  obtain ⟨complaints, hnodup, hmem, rfl⟩ := h
  obtain ⟨complaints', hnodup', hmem', rfl⟩ := h'
  refine ⟨complaints ++ complaints', List.nodup_append.2 ⟨hnodup, hnodup', ?_⟩, fun c => ?_,
    List.map_append.symm⟩
  · rintro c hc _ hc' rfl
    exact hapart c ((hmem c).1 hc) ((hmem' c).1 hc')
  · rw [List.mem_append, hmem, hmem']

/-- Sources of messages one after the other: each tells its own complaints. -/
lemma flatMap {ι : Type} {items : List ι} {kinds : ι → Complaint → Prop} {tell : ι → List Message}
    (h : ∀ i ∈ items, Tells (kinds i) (tell i))
    (hapart : items.Pairwise fun i j => ∀ c, kinds i c → ¬ kinds j c) :
    Tells (fun c => ∃ i ∈ items, kinds i c) (items.flatMap tell) := by
  induction items with
  | nil => exact none (by simp)
  | cons i rest ih =>
    rw [List.pairwise_cons] at hapart
    rw [List.forall_mem_cons] at h
    rw [List.flatMap_cons]
    refine (h.1.append (ih h.2 hapart.2) ?_).congr fun c => List.exists_mem_cons_iff ..
    rintro c hc ⟨j, hj, hc'⟩
    exact hapart.1 j hj c hc hc'

/-- Fields that are not known: one complaint for each name. -/
lemma unknown (hkeyed : Table.Keyed fields) (known : List Text) (complain : Text → Complaint)
    (hinj : Function.Injective complain) :
    Tells (fun c => ∃ name value, fields.lookup name = some value ∧ name ∉ known ∧ c = complain name)
      ((fields.filter fun f => !known.contains f.1).map fun f => (complain f.1).message) := by
  refine ⟨(fields.filter fun f => !known.contains f.1).map fun f => complain f.1, ?_, fun c => ?_, ?_⟩
  · have hnames := hkeyed.sublist ((List.filter_sublist (p := fun f => !known.contains f.1)).map Prod.fst)
    have hcomplain := hnames.map hinj
    rwa [List.map_map] at hcomplain
  · simp only [List.mem_map, List.mem_filter, Bool.not_eq_true', List.contains_eq_mem,
      decide_eq_false_iff_not]
    constructor
    · rintro ⟨⟨name, value⟩, ⟨hmem, hunknown⟩, rfl⟩
      exact ⟨name, value, Table.lookup_of_mem hkeyed hmem, hunknown, rfl⟩
    · rintro ⟨name, value, hlookup, hunknown, rfl⟩
      exact ⟨(name, value), ⟨Table.mem_of_lookup hlookup, hunknown⟩, rfl⟩
  · rw [List.map_map]
    rfl

end Tells

/-! ### The four passes -/

/-- The names in a configuration are distinct, and so are those in each of its sections. -/
def Distinct (fields : Fields) : Prop :=
  Table.Keyed fields ∧ ∀ name inner, fields.lookup name = some (.record inner) → Table.Keyed inner

lemma tells_unknownSections (h : Distinct fields) :
    Tells (fun c => ∃ name value, fields.lookup name = some value ∧ name ∉ knownNames ∧
      c = .unknownSection name) (unknownSections fields) :=
  .unknown h.1 knownNames .unknownSection fun _ _ he => Complaint.unknownSection.inj he

/-- The complaints about one known section: it is no record, or it has fields that are not known. -/
inductive AboutSection (fields : Fields) (entry : Text × List Text) : Complaint → Prop
  | noRecord {value : Value} (h : fields.lookup entry.1 = some value)
    (hvalue : ∀ inner, value ≠ .record inner) : AboutSection fields entry (.noRecord entry.1 value)
  | unknownField {inner : Fields} {name : Text} {value : Value}
    (h : fields.lookup entry.1 = some (.record inner)) (hfield : inner.lookup name = some value)
    (hunknown : name ∉ entry.2) : AboutSection fields entry (.unknownField entry.1 name)

lemma AboutSection.sectionName {entry : Text × List Text} {c : Complaint}
    (h : AboutSection fields entry c) :
    (∃ value, c = .noRecord entry.1 value) ∨ ∃ name, c = .unknownField entry.1 name := by
  cases h with
  | noRecord => exact .inl ⟨_, rfl⟩
  | unknownField => exact .inr ⟨_, rfl⟩

lemma tells_section (h : Distinct fields) {entry : Text × List Text} (hentry : entry ∈ knownSections) :
    Tells (AboutSection fields entry)
      (match fields.lookup entry.1 with
        | some value => sectionWarnings entry.1 entry.2 value
        | none => []) := by
  have hknown : (knownSections.lookup entry.1).getD [] = entry.2 := by
    revert entry
    decide
  cases hlookup : fields.lookup entry.1 with
  | none =>
    refine .none fun c hc => ?_
    cases hc with
    | noRecord h | unknownField h => rw [hlookup] at h; cases h
  | some value =>
    cases value with
    | record inner =>
      have htold := Tells.unknown (h.2 _ _ hlookup) entry.2 (.unknownField entry.1)
        fun _ _ he => (Complaint.unknownField.inj he).2
      simp only [Complaint.message, hknown] at htold
      refine htold.congr fun c => ⟨fun hc => ?_, ?_⟩
      · cases hc with
        | noRecord h hvalue =>
          rw [hlookup] at h
          cases h
          exact absurd rfl (hvalue inner)
        | unknownField h hfield hunknown =>
          rw [hlookup] at h
          cases h
          exact ⟨_, _, hfield, hunknown, rfl⟩
      · rintro ⟨name, value, hfield, hunknown, rfl⟩
        exact .unknownField hlookup hfield hunknown
    | null | bool | int | double | text | list =>
      refine .one (.noRecord entry.1 _) fun c => ⟨fun hc => ?_, ?_⟩
      · cases hc with
        | noRecord h => rw [hlookup] at h; cases h; rfl
        | unknownField h => rw [hlookup] at h; cases h
      · rintro rfl
        exact .noRecord hlookup nofun

lemma tells_presentSections (h : Distinct fields) :
    Tells (fun c => ∃ entry ∈ knownSections, AboutSection fields entry c) (presentSections fields) := by
  refine .flatMap (fun entry hentry => tells_section h hentry) ?_
  have hnames : knownSections.Pairwise fun a b => a.1 ≠ b.1 := by decide
  refine hnames.imp fun hne c hc hc' => hne ?_
  rcases hc.sectionName with ⟨_, rfl⟩ | ⟨_, rfl⟩ <;>
    rcases hc'.sectionName with ⟨_, he⟩ | ⟨_, he⟩ <;> injection he

/-- The complaint about a field that should hold a number. -/
def AboutNumber (fields : Fields) (entry : Text × Text) (c : Complaint) : Prop :=
  isNumeric (fieldIn fields entry.1 entry.2) = false ∧
    c = .noNumber entry.1 entry.2 (fieldIn fields entry.1 entry.2)

lemma tells_numericWarnings (fields : Fields) :
    Tells (fun c => ∃ entry ∈ numericFields, AboutNumber fields entry c) (numericWarnings fields) := by
  rw [numericWarnings, List.filterMap_eq_flatMap_toList]
  refine .flatMap (fun entry _ => ?_) ?_
  · simp only
    cases hnumeric : isNumeric (fieldIn fields entry.1 entry.2) with
    | true => exact .none fun c (hc : AboutNumber ..) => Bool.false_ne_true (hc.1.symm.trans hnumeric)
    | false => exact .one (.noNumber entry.1 entry.2 _) fun c => and_iff_right hnumeric
  · have hnodup : numericFields.Pairwise fun a b => a ≠ b := by decide
    refine hnodup.imp fun hne c hc hc' => hne ?_
    have hsame := Complaint.noNumber.inj (hc.2.symm.trans hc'.2)
    exact Prod.ext hsame.1 hsame.2.1

lemma tells_batchWarnings (size : Value) :
    Tells (fun c => ∃ n, size = .int n ∧ 100 < n ∧ c = .largeBatch n) (batchWarnings size) := by
  cases size with
  | int n =>
    simp only [batchWarnings]
    by_cases hlarge : largestBatch < n
    · rw [if_pos hlarge]
      refine .one (.largeBatch n) fun c => ⟨?_, ?_⟩
      · rintro ⟨m, hm, -, rfl⟩
        cases hm
        rfl
      · rintro rfl
        exact ⟨n, rfl, hlarge, rfl⟩
    · rw [if_neg hlarge]
      refine .none ?_
      rintro c ⟨m, hm, hm', -⟩
      cases hm
      exact hlarge hm'
  | null | bool | double | text | list | record => exact .none fun c ⟨m, hm, _⟩ => by cases hm

/-! ### The whole check -/

lemma fieldIn_eq_iff {sectionName name : Text} {value : Value} (hvalue : value ≠ .null) :
    fieldIn fields sectionName name = value ↔
      ∃ inner, fields.lookup sectionName = some (.record inner) ∧ inner.lookup name = some value := by
  unfold fieldIn
  split
  · rename_i inner hlookup
    rw [hlookup]
    cases hfield : inner.lookup name <;> simp [hfield, hvalue.symm]
  · rename_i hno
    refine ⟨fun h => absurd h.symm hvalue, fun ⟨inner, hlookup, _⟩ => absurd hlookup (hno inner)⟩

lemma isNumeric_eq_false {value : Value} : isNumeric value = false ↔
    value ≠ .null ∧ (∀ n, value ≠ .int n) ∧ ∀ x, value ≠ .double x := by
  cases value <;> simp [isNumeric]

lemma exists_knownSection : ∀ name ∈ knownNames, ∃ entry ∈ knownSections, entry.1 = name := by decide

lemma knownSection_mem : ∀ entry ∈ knownSections, entry.1 ∈ knownNames := by decide

/-- The complaints of the four passes are those that apply. -/
lemma applies_iff (fields : Fields) (c : Complaint) : c.Applies fields ↔
    (((∃ name value, fields.lookup name = some value ∧ name ∉ knownNames ∧ c = .unknownSection name) ∨
      ∃ entry ∈ knownSections, AboutSection fields entry c) ∨
      ∃ entry ∈ numericFields, AboutNumber fields entry c) ∨
      ∃ n, fieldIn fields "export" "batchSize" = .int n ∧ 100 < n ∧ c = .largeBatch n := by
  constructor
  · intro h
    cases h with
    | unknownSection h hunknown => exact .inl (.inl (.inl ⟨_, _, h, hunknown, rfl⟩))
    | @noRecord sectionName value hknown h hvalue =>
      obtain ⟨entry, hentry, rfl⟩ := exists_knownSection sectionName hknown
      exact .inl (.inl (.inr ⟨entry, hentry, .noRecord h hvalue⟩))
    | unknownField hknown h hfield hunknown =>
      exact .inl (.inl (.inr ⟨_, hknown, .unknownField h hfield hunknown⟩))
    | noNumber hknown h hfield hnull hint hdouble =>
      have hvalue := (fieldIn_eq_iff hnull).2 ⟨_, h, hfield⟩
      refine .inl (.inr ⟨_, hknown, ?_, ?_⟩)
      · rw [hvalue, isNumeric_eq_false]
        exact ⟨hnull, hint, hdouble⟩
      · rw [hvalue]
    | largeBatch h hfield hlarge =>
      exact .inr ⟨_, (fieldIn_eq_iff Value.noConfusion).2 ⟨_, h, hfield⟩, hlarge, rfl⟩
  · rintro (((⟨name, value, h, hunknown, rfl⟩ | ⟨entry, hentry, hc⟩) | ⟨entry, hentry, hnumeric, rfl⟩) |
      ⟨n, hn, hlarge, rfl⟩)
    · exact .unknownSection h hunknown
    · have hknown := knownSection_mem entry hentry
      cases hc with
      | noRecord h hvalue => exact .noRecord hknown h hvalue
      | unknownField h hfield hunknown => exact .unknownField hentry h hfield hunknown
    · obtain ⟨hnull, hint, hdouble⟩ := isNumeric_eq_false.1 hnumeric
      obtain ⟨inner, h, hfield⟩ := (fieldIn_eq_iff hnull).1 rfl
      exact .noNumber hentry h hfield hnull hint hdouble
    · have hvalue : Value.int n ≠ .null := Value.noConfusion
      obtain ⟨inner, h, hfield⟩ := (fieldIn_eq_iff hvalue).1 hn
      exact .largeBatch h hfield hlarge

/-- The check warns of each complaint that applies once, and of nothing else, unless the export section
counts as present and is no record: then it fails. -/
theorem check_tells (h : Distinct fields) :
    (SectionUsable fields "export" → ∃ messages, check (.record fields) = .ok messages ∧
      Tells (Complaint.Applies fields) messages) ∧
    (¬ SectionUsable fields "export" → check (.record fields) = .error .noSuchField) := by
  have hcheck : check (.record fields) = (do
      let size ← (sectionValue fields "export").field "batchSize"
      return unknownSections fields ++ presentSections fields ++ numericWarnings fields ++
        batchWarnings size) := rfl
  rw [hcheck]
  constructor
  · intro husable
    rw [husable.sectionValue, field_innerOf, ok_bind]
    refine ⟨_, rfl, Tells.congr ?_ (applies_iff fields)⟩
    refine (((tells_unknownSections h).append (tells_presentSections h) ?_).append
      (tells_numericWarnings fields) ?_).append (tells_batchWarnings _) ?_
    · rintro _ ⟨_, _, _, _, rfl⟩ ⟨entry, -, hc⟩
      rcases hc.sectionName with ⟨_, he⟩ | ⟨_, he⟩ <;> cases he
    · rintro _ (⟨_, _, _, _, rfl⟩ | ⟨entry, -, hc⟩) ⟨_, -, -, he⟩
      · cases he
      · rcases hc.sectionName with ⟨_, rfl⟩ | ⟨_, rfl⟩ <;> cases he
    · rintro _ ((⟨_, _, _, _, rfl⟩ | ⟨entry, -, hc⟩) | ⟨_, -, -, rfl⟩) ⟨_, -, -, he⟩
      · cases he
      · rcases hc.sectionName with ⟨_, rfl⟩ | ⟨_, rfl⟩ <;> cases he
      · cases he
  · intro hunusable
    rw [Value.field, fields_of_not_usable hunusable]
    rfl

/-! ### Configurations -/

/-- A configuration with something wrong of every kind. -/
def messyFields : Fields :=
  [("figmaa", .record []), ("figma", .null),
    ("export", .record [("batchSize", .int 500), ("bacthSize", .int 1), ("rasterScale", .bool true)])]

lemma distinct_messyFields : Distinct messyFields := by
  refine ⟨by decide, fun name inner h => ?_⟩
  have hmem := Table.mem_of_lookup h
  simp only [messyFields, List.mem_cons, Prod.mk.injEq, Value.record.injEq, List.not_mem_nil,
    or_false, reduceCtorEq, and_false, false_or] at hmem
  rcases hmem with ⟨-, rfl⟩ | ⟨-, rfl⟩ <;> decide

/-- Five things are wrong with the configuration, and each is told. -/
theorem check_tells_messy : Distinct messyFields ∧ ∃ messages,
    check (.record messyFields) = .ok messages ∧ messages.length = 5 ∧
      Tells (Complaint.Applies messyFields) messages := by
  have husable : SectionUsable messyFields "export" := by
    intro value h _
    cases h
    exact ⟨_, rfl⟩
  obtain ⟨messages, hcheck, htold⟩ := (check_tells distinct_messyFields).1 husable
  have hlength : (check (.record messyFields)).toOption.map List.length = some 5 := by decide
  rw [hcheck] at hlength
  exact ⟨distinct_messyFields, messages, hcheck, Option.some.inj hlength, htold⟩

/-- An export section that is a list stops the check, although a complaint about it applies. -/
theorem check_listedExport : Distinct [("export", .list [.int 1])] ∧
    Complaint.Applies [("export", .list [.int 1])] (.noRecord "export" (.list [.int 1])) ∧
    check (.record [("export", .list [.int 1])]) = .error .noSuchField := by
  refine ⟨⟨by decide, fun name inner h => ?_⟩, .noRecord (by decide) rfl nofun, rfl⟩
  have hmem := Table.mem_of_lookup h
  simp at hmem

end Handoff.Config
