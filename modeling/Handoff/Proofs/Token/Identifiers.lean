import Handoff.Proofs.Numeric.Spelling
import Handoff.Proofs.Token.Contributions
import Handoff.Proofs.Token.Typed

/-!
Which tokens have names that style sheets can declare.

The slug of a variable's name can begin as a number or consist of hyphens. Of the names that the layers
give only those of text sizes can fail, by the point or the plus sign of a size that is not whole.
-/

namespace Handoff.Token

open Asset Design Files Numeric Text

/-! ### Identifiers of style sheets -/

/-- A text that begins with a digit, or with a hyphen and a digit. -/
def beginsAsNumber (text : Text) : Bool :=
  match text.toList with
  | [] => false
  | c :: rest => isNumeralChar c || (c == '-' && rest.head?.any isNumeralChar)

/-- A name of style sheets: letters, digits, underscores and hyphens, not hyphens alone, and not
beginning as a number. -/
structure IsSheetName (name : Text) : Prop where
  chars : Over isFileChar name
  visible : ∃ c ∈ name.toList, c ≠ '-'
  start : beginsAsNumber name = false

instance : DecidablePred IsSheetName := fun name =>
  decidable_of_iff ((∀ c ∈ name.toList, isFileChar c = true) ∧ (∃ c ∈ name.toList, c ≠ .char '-') ∧
      beginsAsNumber name = false)
    ⟨fun h => ⟨h.1, h.2.1, h.2.2⟩, fun h => ⟨h.chars, h.visible, h.start⟩⟩

section

variable {name : Text} {layers : List Layer} {tokens : Tokens}

/-- A text of name characters that begins with a small letter. -/
structure IsLead (lead : Text) : Prop where
  chars : Over isFileChar lead
  letter : lead.toList.head?.any (fun c => decide (97 ≤ c.toNat)) = true

instance : DecidablePred IsLead := fun lead =>
  decidable_of_iff ((∀ c ∈ lead.toList, isFileChar c = true) ∧
      lead.toList.head?.any (fun c => decide (97 ≤ c.toNat)) = true)
    ⟨fun h => ⟨h.1, h.2⟩, fun h => ⟨h.chars, h.letter⟩⟩

/-- What follows a letter needs nothing but its characters. -/
lemma IsLead.isSheetName_iff {lead rest : Text} (h : IsLead lead) :
    IsSheetName (lead ++ rest) ↔ Over isFileChar rest := by
  obtain ⟨c, hfirst, hc⟩ := (Option.any_eq_true ..).1 h.letter
  obtain ⟨others, hl⟩ := List.head?_eq_some_iff.1 hfirst
  have hletter : 97 ≤ c.toNat := of_decide_eq_true hc
  have hdigit : isNumeralChar c = false := by
    rw [Bool.eq_false_iff, Ne, isNumeralChar_iff]
    omega
  have hhyphen : c ≠ '-' := by
    rintro rfl
    exact absurd hletter (by decide)
  refine ⟨fun hname => (over_append.1 hname.chars).2, fun hrest => ⟨over_append.2 ⟨h.chars, hrest⟩,
    ⟨c, by simp [hl], hhyphen⟩, ?_⟩⟩
  simp [beginsAsNumber, hl, hdigit, hhyphen]

/-! ### Names of variables -/

/-- The slug of a name is a name unless it is hyphens alone or begins as a number. -/
lemma isSheetName_tokenName (raw : Text) : IsSheetName (tokenName raw) ↔
    (∃ c ∈ (tokenName raw).toList, c ≠ .char '-') ∧ beginsAsNumber (tokenName raw) = false :=
  ⟨fun h => ⟨h.visible, h.start⟩,
    fun h => ⟨fun c hc => isFileChar_of_slug (isSlug_slug _ c hc), h.1, h.2⟩⟩

/-! ### Names of layers -/

/-- The text of a layer's text size. -/
def IsTextSize (layers : List Layer) (size : Text) : Prop :=
  ∃ layer ∈ layers, (layer.typography.get "fontSize").truthy = true ∧
    measure (layer.typography.get "fontSize") = .ok size

lemma fontSize_of_traitsOf {layer : Layer} {traits : Traits} {size : Text}
    (h : traitsOf layer = .ok traits) (hsize : traits.fontSize = some size) :
    (layer.typography.get "fontSize").truthy = true ∧
      measure (layer.typography.get "fontSize") = .ok size := by
  obtain ⟨color, -, h⟩ := bind_eq_ok.1 h
  dsimp only at h
  split at h
  · rename_i htruthy
    obtain ⟨found, hfound, h⟩ := bind_eq_ok.1 h
    cases h
    cases hmeasure : measure (layer.typography.get "fontSize") with
    | error fault =>
      rw [hmeasure] at hfound
      cases hfound
    | ok text =>
      rw [hmeasure] at hfound
      cases hfound
      cases hsize
      exact ⟨htruthy, rfl⟩
  · cases h
    cases hsize

/-- The names that the layers give: numbered colours and families, and text sizes. -/
lemma name_of_harvest (h : harvest layers = .ok tokens) {e : Text × Text} (he : e ∈ tokens.entries) :
    (∃ i : Nat, e.1 = "color-" ++ toString i) ∨ (∃ i : Nat, e.1 = "font-family-" ++ toString i) ∨
      ∃ size, IsTextSize layers size ∧ e.1 = "font-size-" ++ size := by
  obtain ⟨traits, htraits, h⟩ := bind_eq_ok.1 h
  obtain ⟨families, -, h⟩ := bind_eq_ok.1 h
  cases h
  have hplace (table : List (Text × Text)) (ht : e ∈ Table.ofEntries table) :
      e.1 ∈ table.map Prod.fst := by
    have hkeys := List.mem_map_of_mem (f := Prod.fst) ht
    rwa [Table.keys_ofEntries, mem_distinct] at hkeys
  obtain ⟨group, hgroup⟩ := Tokens.mem_entries.1 he
  cases group with
  | colors =>
    have hnames := hplace _ hgroup
    simp only [List.map_map, List.mem_map, Function.comp] at hnames
    obtain ⟨color, -, hname⟩ := hnames
    exact .inl ⟨color.1, hname.symm⟩
  | typography =>
    have hnames := hplace _ hgroup
    simp only [List.map_append, List.map_map, List.mem_append, List.mem_map, Function.comp] at hnames
    rcases hnames with ⟨size, hsize, hname⟩ | ⟨family, -, hname⟩
    · obtain ⟨trait, htrait, hsome⟩ := List.mem_filterMap.1 (mem_distinct.1 hsize)
      obtain ⟨layer, hlayer, htraits⟩ := exists_of_mem_forall₂ (forall₂_of_mapM htraits) htrait
      exact .inr (.inr ⟨size, ⟨layer, hlayer, fontSize_of_traitsOf htraits hsome⟩, hname.symm⟩)
    · exact .inr (.inl ⟨family.1, hname.symm⟩)
  | spacing | other => cases hgroup

lemma over_decimal {s : String} (h : Decimal.IsDecimalText s) :
    Over isTokenNameChar s ∧ (Over isFileChar s ↔
      CodePoint.char '.' ∉ (s : Text).toList ∧ CodePoint.char '+' ∉ (s : Text).toList) := by
  have hchar : ∀ c ∈ (s : Text).toList, isFileChar c = true ∨ c = .char '.' ∨ c = .char '+' := by
    intro c hc
    obtain ⟨d, hd, rfl⟩ := List.mem_map.1 hc
    have hdecimal := h d hd
    simp only [Decimal.isDecimalChar, Bool.or_eq_true, beq_iff_eq] at hdecimal
    rcases hdecimal with (((hdigit | rfl) | rfl) | rfl) | rfl
    · simp only [Char.isDigit, Bool.and_eq_true, decide_eq_true_eq, UInt32.le_iff_toNat_le] at hdigit
      exact .inl (isFileChar_of_word (isWordChar_of_numeral (isNumeralChar_iff.2 hdigit)))
    · exact .inl (by decide)
    · exact .inr (.inr rfl)
    · exact .inr (.inl rfl)
    · exact .inl (by decide)
  refine ⟨fun c hc => ?_, fun hover => ⟨fun hpoint => ?_, fun hplus => ?_⟩, fun hfree c hc => ?_⟩
  · rcases hchar c hc with hfile | rfl | rfl
    · simp [isTokenNameChar, hfile]
    · decide
    · decide
  · exact absurd (hover _ hpoint) (by decide)
  · exact absurd (hover _ hplus) (by decide)
  · rcases hchar c hc with hfile | rfl | rfl
    · exact hfile
    · exact absurd hc hfree.1
    · exact absurd hc hfree.2

/-- A numbered name can be declared. -/
lemma isSheetName_numbered {lead : Text} (h : IsLead lead) (i : Nat) :
    IsSheetName (lead ++ toString i) :=
  h.isSheetName_iff.2 fun c hc => isFileChar_of_word (isWordChar_of_numeral (over_numeral i c hc))

/-- The name of a text size can be declared unless the size has a point or a plus sign. -/
lemma isSheetName_textSize {size : Text} (h : IsTextSize layers size) :
    Over isTokenNameChar size ∧ (IsSheetName ("font-size-" ++ size) ↔
      CodePoint.char '.' ∉ size.toList ∧ CodePoint.char '+' ∉ size.toList) := by
  obtain ⟨layer, -, -, hmeasure⟩ := h
  obtain ⟨s, rfl, hs⟩ := measure_decimal hmeasure
  obtain ⟨hover, hiff⟩ := over_decimal hs
  have hlead : IsLead "font-size-" := by decide
  exact ⟨hover, hlead.isSheetName_iff.trans hiff⟩

/-- A colour or a family has a name that can be declared; a text size has one of its own. -/
lemma isSheetName_or_textSize (h : harvest layers = .ok tokens) {e : Text × Text}
    (he : e ∈ tokens.entries) :
    IsSheetName e.1 ∨ ∃ size, IsTextSize layers size ∧ e.1 = "font-size-" ++ size := by
  rcases name_of_harvest h he with ⟨i, hname⟩ | ⟨i, hname⟩ | hsize
  · rw [hname]
    exact .inl (isSheetName_numbered (by decide) i)
  · rw [hname]
    exact .inl (isSheetName_numbered (by decide) i)
  · exact .inr hsize

lemma over_names_of_harvest (h : harvest layers = .ok tokens) :
    ∀ e ∈ tokens.entries, Over isTokenNameChar e.1 := by
  have hfile (c : CodePoint) (hc : isFileChar c = true) : isTokenNameChar c = true := by
    simp [isTokenNameChar, hc]
  intro e he
  rcases isSheetName_or_textSize h he with hname | ⟨size, hsize, hname⟩
  · exact hname.chars.mono hfile
  · rw [hname]
    exact over_append.2 ⟨over_ofString (by decide), (isSheetName_textSize hsize).1⟩

/-- Which declared names are names of style sheets: of the slugs of variables those that are neither
hyphens alone nor begin as a number, and of the names from the layers all but the text sizes with a
point or a plus sign. -/
theorem isSheetName_token_iff (payload : Value) (layers : List Layer) :
    (∀ tokens, (extractTokens payload).Gives (.ok tokens) → tokens.AreWritten ∧
      ∀ e ∈ tokens.entries, (IsSheetName e.1 ↔
        (∃ c ∈ e.1.toList, c ≠ .char '-') ∧ beginsAsNumber e.1 = false)) ∧
    ∀ tokens, harvest layers = .ok tokens → tokens.AreWritten ∧
      ∀ e ∈ tokens.entries, (IsSheetName e.1 ↔ ∀ size, IsTextSize layers size →
        e.1 = "font-size-" ++ size →
          CodePoint.char '.' ∉ size.toList ∧ CodePoint.char '+' ∉ size.toList) := by
  refine ⟨fun tokens h => ⟨Tokens.areWritten (over_names_of_gives h), fun e he => ?_⟩,
    fun tokens h => ⟨Tokens.areWritten (over_names_of_harvest h), fun e he => ⟨?_, ?_⟩⟩⟩
  · obtain ⟨raw, hname, -⟩ := tokenName_of_gives h e he
    rw [hname]
    exact isSheetName_tokenName raw
  · intro hname size hsize hsame
    rw [hsame] at hname
    exact (isSheetName_textSize hsize).2.1 hname
  · intro hsizes
    rcases isSheetName_or_textSize h he with hname | ⟨size, hsize, hname⟩
    · exact hname
    · rw [hname]
      exact (isSheetName_textSize hsize).2.2 (hsizes size hsize hname)

/-- A line of text in a size that is not whole. -/
def caption : Layer :=
  { plainLayer "1:2" "Caption" "TEXT" with
    typography := [(.text "fontSize", .double (.finite (25 / 2)))] }

theorem isSheetName_token_iff_caption :
    let payload := payloadOf [("1", variableOf "500" "FLOAT" (.int 8))]
    let found : Tokens := ⟨[], [], [], [("500", "8")]⟩
    let tokens : Tokens := ⟨[], [("font-size-12.5", "12.5px")], [], []⟩
    (extractTokens payload).Gives (.ok found) ∧ found.AreWritten ∧
      harvest [caption] = .ok tokens ∧ tokens.AreWritten := by
  intro payload found tokens
  have hgives : (extractTokens payload).Gives (.ok found) := gives_of_tokensOf (by decide +kernel)
  have hharvest : harvest [caption] = .ok tokens := by decide +kernel
  obtain ⟨hpayload, hlayers⟩ := isSheetName_token_iff payload [caption]
  exact ⟨hgives, (hpayload found hgives).1, hharvest, (hlayers tokens hharvest).1⟩

/-- A variable whose name is a number and a text size that is not whole give names that no style sheet
can declare. -/
theorem not_isSheetName :
    (∃ tokens, (extractTokens (payloadOf [("1", variableOf "500" "FLOAT" (.int 8))])).Gives
      (.ok tokens) ∧ ∃ found, statements? (tokensSheet tokens) = some found ∧
        sheetVariables found = ([("500", "8")] : List (Text × Text)) ∧ ¬ IsSheetName "500") ∧
    ∃ tokens, harvest [caption] = .ok tokens ∧
      ∃ found, statements? (tokensSheet tokens) = some found ∧
        sheetVariables found = ([("font-size-12.5", "12.5px")] : List (Text × Text)) ∧
        ¬ IsSheetName "font-size-12.5" := by
  have hwritten (tokens : Tokens) (h : tokens.AreDeclarable) :
      ∃ found, statements? (tokensSheet tokens) = some found ∧ sheetVariables found = tokens.entries := by
    obtain ⟨found, hfound, -, -, hvariables⟩ := declared_tokensSheet h
    exact ⟨found, hfound, hvariables⟩
  obtain ⟨found, hfound, hnumber⟩ := hwritten ⟨[], [], [], [("500", "8")]⟩ (by decide +kernel)
  obtain ⟨found', hfound', hsize⟩ := hwritten ⟨[], [("font-size-12.5", "12.5px")], [], []⟩
    (by decide +kernel)
  exact ⟨⟨_, gives_of_tokensOf (by decide +kernel), found, hfound, hnumber, by decide +kernel⟩,
    _, by decide +kernel, found', hfound', hsize, by decide +kernel⟩

end

end Handoff.Token
