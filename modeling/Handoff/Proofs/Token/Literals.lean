import Handoff.Proofs.Render.Agreement
import Handoff.Proofs.Render.Declaring
import Handoff.Proofs.Token.Contributions
import Handoff.Proofs.Token.Typed

/-!
Literals in style sheets: the font families of texts, the texts of variables and the families that the
layers use stand between quotes as they are.

A backslash takes one character more to write than it denotes, so no text with one is read back; nor is
a text with the quote itself or with a line end in it. All other texts are.
-/

namespace Handoff.Token

open Asset Design Naming Render Text

/-! ### Reading a literal -/

/-- What is read behind an opening quote, perhaps behind a backslash there: the text that the literal
denotes, and what comes behind its closing quote. A backslash stands for the character behind it, and no
line ends inside a literal. -/
def readQuoted (quote : CodePoint) :
    Bool → List CodePoint → Option (List CodePoint × List CodePoint)
  | _, [] => none
  | true, c :: rest => (readQuoted quote false rest).map fun (text, after) => (c :: text, after)
  | false, c :: rest =>
    if c = quote then some ([], rest)
    else if isLineEnd c then none
    else if c = '\\' then readQuoted quote true rest
    else (readQuoted quote false rest).map fun (text, after) => (c :: text, after)

/-- What is read from an opening quote on. -/
def readLiteral : List CodePoint → Option (List CodePoint × List CodePoint)
  | quote :: rest => if quote = '"' ∨ quote = apostrophe then readQuoted quote false rest else none
  | [] => none

example : readLiteral ("'a\\'b' c" : Text).toList = some (("a'b" : Text).toList, (" c" : Text).toList) := by
  decide

/-- The text between quotes. -/
def literal (quote : Char) (text : Text) : Text := ofList (.char quote :: (text.toList ++ [.char quote]))

/-- A text that can stand between quotes as it is. -/
def IsPlain (quote : Char) (text : Text) : Prop :=
  ∀ c ∈ text.toList, c ≠ .char quote ∧ c ≠ '\\' ∧ isLineEnd c = false

instance (quote : Char) : DecidablePred (IsPlain quote) := fun text =>
  inferInstanceAs (Decidable (∀ c ∈ text.toList, _))

variable {quote : CodePoint}

/-- A literal is longer than what it denotes, at least by its closing quote. -/
lemma length_readQuoted {escaped : Bool} {l text after : List CodePoint}
    (h : readQuoted quote escaped l = some (text, after)) :
    text.length + after.length < l.length := by
  induction l generalizing escaped text with
  | nil => cases escaped <;> cases h
  | cons c rest ih =>
    have hnext (h : (readQuoted quote false rest).map (fun (text, after) => (c :: text, after)) =
        some (text, after)) : text.length + after.length < (c :: rest).length := by
      obtain ⟨⟨text', after'⟩, hread, he⟩ := Option.map_eq_some_iff.1 h
      cases he
      have hlength := ih hread
      simp only [List.length_cons]
      omega
    cases escaped with
    | true => exact hnext h
    | false =>
      rw [readQuoted] at h
      split at h
      · cases h
        simp
      split at h
      · cases h
      split at h
      · have hlength := ih h
        simp only [List.length_cons]
        omega
      · exact hnext h

/-- Behind an opening quote, a text is read back up to the closing quote exactly when it has no such
quote, no backslash and no line end. -/
theorem readQuoted_eq_some_iff {l after : List CodePoint} :
    readQuoted quote false (l ++ quote :: after) = some (l, after) ↔
      ∀ c ∈ l, c ≠ quote ∧ c ≠ '\\' ∧ isLineEnd c = false := by
  induction l with
  | nil => simp [readQuoted]
  | cons c rest ih =>
    rw [List.cons_append, List.forall_mem_cons, ← ih, readQuoted]
    by_cases hquote : c = quote
    · simp [hquote]
    by_cases hend : isLineEnd c = true
    · simp [hquote, hend]
    rw [if_neg hquote, if_neg hend]
    by_cases hescape : c = '\\'
    · -- What is left is too short for a text of this length and its closing quote.
      rw [if_pos hescape]
      refine iff_of_false (fun h => ?_) fun h => h.1.2.1 hescape
      have hlength := length_readQuoted h
      simp only [List.length_append, List.length_cons] at hlength
      omega
    · rw [if_neg hescape]
      simp [hquote, hend, hescape]

/-- A literal denotes the text between its quotes exactly when the text can stand there as it is. -/
theorem readLiteral_eq_some_iff {quote : Char} (hquote : quote = '"' ∨ quote = apostrophe)
    (text after : Text) :
    readLiteral (literal quote text ++ after).toList = some (text.toList, after.toList) ↔
      IsPlain quote text := by
  have hlist : (literal quote text ++ after).toList =
      .char quote :: (text.toList ++ .char quote :: after.toList) := by
    simp [literal]
  have hopen : CodePoint.char quote = '"' ∨ CodePoint.char quote = apostrophe :=
    hquote.imp (congrArg _) (congrArg _)
  rw [hlist, readLiteral, if_pos hopen, readQuoted_eq_some_iff]
  rfl

/-! ### Literals in style files -/

/-- Behind this lead, a style file has the text between quotes; read there, the literal gives back the
text exactly when the text can stand between quotes as it is. -/
def Quotes (quote : Char) (lead text sheet : Text) : Prop :=
  ∃ before after, sheet = before ++ lead ++ literal quote text ++ after ∧
    (readLiteral (literal quote text ++ after).toList = some (text.toList, after.toList) ↔
      IsPlain quote text)

lemma exists_of_mem_unlines {lines : List Text} {line : Text} (h : line ∈ lines) :
    ∃ before after, unlines lines = before ++ line ++ after := by
  induction lines with
  | nil => cases h
  | cons first rest ih =>
    have hrest (h : line ∈ rest) : ∃ before after, unlines (first :: rest) = before ++ line ++ after := by
      obtain ⟨before, after, heq⟩ := ih h
      refine ⟨first ++ "\n" ++ before, after, ?_⟩
      rw [unlines_cons first (List.ne_nil_of_mem h), heq]
      simp only [append_assoc]
    rcases List.mem_cons.1 h with rfl | h
    · by_cases hempty : rest = []
      · rw [hempty, unlines_singleton]
        exact ⟨"", "", ext_toList (by simp)⟩
      · refine ⟨"", "\n" ++ unlines rest, ?_⟩
        rw [unlines_cons line hempty]
        exact ext_toList (by simp)
    · exact hrest h

/-- A line with a literal behind the lead. -/
lemma quotes_unlines {quote : Char} (hquote : quote = '"' ∨ quote = apostrophe) {lines : List Text}
    {front lead text tail : Text} (h : front ++ lead ++ literal quote text ++ tail ∈ lines) :
    Quotes quote lead text (unlines lines) := by
  obtain ⟨before, after, heq⟩ := exists_of_mem_unlines h
  refine ⟨before ++ front, tail ++ after, ?_, readLiteral_eq_some_iff hquote _ _⟩
  rw [heq]
  simp only [append_assoc]

/-! ### Families in the style sheet of a component -/

section

variable {files : FileMap} {component : Component} {style : Style} {text : TextStyle} {sheet : Text}
  {declarations : List Declaration}

/-- The declaration of a text's font family. -/
def familyDeclaration (text : TextStyle) : Declaration :=
  ⟨"font-family", literal apostrophe text.fontFamily.display ++ ", sans-serif"⟩

lemma familyDeclaration_eq (text : TextStyle) : familyDeclaration text =
    ⟨StyleProperty.fontFamily.name, "'" ++ text.fontFamily.display ++ "', sans-serif"⟩ := by
  rw [familyDeclaration]
  congr 1
  exact ext_toList (by simp [literal, apostrophe])

/-- The line of a family has it between apostrophes. -/
lemma quotes_familyLine {lines : List Text} (depth : Nat)
    (h : (familyDeclaration text).line depth ∈ lines) :
    Quotes apostrophe "font-family: " text.fontFamily.display (unlines lines) := by
  have hline : (familyDeclaration text).line depth =
      ofList (List.replicate (2 * depth) ' ') ++ "font-family: " ++
        literal apostrophe text.fontFamily.display ++ ", sans-serif;" :=
    ext_toList (by simp [Declaration.line, Declaration.text, indented, familyDeclaration])
  rw [hline] at h
  exact quotes_unlines (.inr rfl) h

/-- The families of a component and its elements stand between apostrophes. -/
theorem quotes_stylesheet (h : stylesheet files component = .ok sheet)
    (hstyle : style = component.style ∨ style ∈ component.elements.map Element.style)
    (htext : style.text = some text) (hfamily : text.fontFamily.truthy = true) :
    Quotes apostrophe "font-family: " text.fontFamily.display sheet := by
  have hfound : Says style .fontFamily ("'" ++ text.fontFamily.display ++ "', sans-serif") :=
    .text htext (.fontFamily hfamily)
  obtain ⟨top, inner, hparts⟩ := isSheetOf_of_stylesheet h
  obtain ⟨lines, rfl, htop, hinner⟩ := hparts.exists_lines
  rcases hstyle with rfl | hmem
  · refine quotes_familyLine 1 (htop _ ?_)
    rw [familyDeclaration_eq]
    exact (states_rootRule hparts.outer).mem hfound
  · obtain ⟨e, he, rfl⟩ := List.mem_map.1 hmem
    obtain ⟨rule, hmem, hrule⟩ := hparts.exists_rule he
    refine quotes_familyLine 2 (hinner rule hmem _ ?_)
    rw [familyDeclaration_eq]
    exact (states_elementRule hrule).mem (.own hfound)

end

/-! ### Tokens -/

section

variable {tokens : Tokens} {group : Group} {name text : Text}

/-- A token with a literal is written twice, as a property and as a variable. -/
theorem quotes_tokensSheet (h : (name, literal '"' text) ∈ tokens.group group) :
    Quotes '"' ("--" ++ name ++ ": ") text (tokensSheet tokens) ∧
      Quotes '"' ("$" ++ name ++ ": ") text (tokensSheet tokens) := by
  have hgroup (heading : Text) (line : Text → Text → Text) :
      line name (literal '"' text) ∈ groupLines tokens heading line := by
    refine List.mem_flatMap.2 ⟨group, Group.mem_all group, ?_⟩
    have hline := List.mem_map_of_mem (f := fun e => line e.1 e.2) h
    cases hentries : tokens.group group with
    | nil =>
      rw [hentries] at h
      cases h
    | cons entry rest =>
      rw [hentries] at hline
      exact List.mem_append_left _ (List.mem_cons_of_mem _ hline)
  constructor
  · have hline : propertyLine name (literal '"' text) =
        "  " ++ ("--" ++ name ++ ": ") ++ literal '"' text ++ ";" :=
      ext_toList (by simp [propertyLine])
    have hmem := hgroup "  // " propertyLine
    rw [hline] at hmem
    exact quotes_unlines (.inl rfl)
      (List.mem_append_left _ (List.mem_append_left _ (List.mem_append_right _ hmem)))
  · have hline : variableLine name (literal '"' text) =
        "" ++ ("$" ++ name ++ ": ") ++ literal '"' text ++ ";" :=
      ext_toList (by simp [variableLine])
    have hmem := hgroup "// " variableLine
    rw [hline] at hmem
    exact quotes_unlines (.inl rfl) (List.mem_append_right _ hmem)

/-- The token of a text variable is the literal of its value. -/
theorem literal_of_readVariable {index : Index} {id : Text} {entry type : Value} {value : Text}
    (htype : entry.field "resolvedType" = .ok type) (hstring : type.isText "STRING" = true)
    (h : readVariable index id entry = .ok (.token group name value)) :
    ∃ found, resolvedValue index id entry = .ok found ∧ value = literal '"' found.display := by
  obtain ⟨field, -, h⟩ := bind_eq_ok.1 h
  obtain ⟨raw, -, h⟩ := bind_eq_ok.1 h
  dsimp only at h
  split at h
  · cases h
  obtain ⟨found, hfound, h⟩ := bind_eq_ok.1 h
  split at h
  · cases h
  rw [htype, ok_bind] at h
  have hstring : type = .text "STRING" := by
    cases type with
    | text t => exact congrArg Value.text (of_decide_eq_true hstring)
    | _ => cases hstring
  subst hstring
  have htoken : textToken (lower raw) (tokenName raw) found = .token group name value :=
    Except.ok.inj h
  cases htoken
  exact ⟨found, hfound, ext_toList (by simp [literal])⟩

/-! ### Families of layers -/

/-- Of each key that is entered, the table has an entry that was entered. -/
lemma exists_of_foldl_enterOnce (entries : List (Key × Value)) (table : Table Key Value) :
    (∀ e ∈ table ++ entries, ∃ v, (e.1, v) ∈ entries.foldl enterOnce table) ∧
      ∀ e ∈ entries.foldl enterOnce table, e ∈ table ++ entries := by
  induction entries generalizing table with
  | nil =>
    rw [List.append_nil]
    exact ⟨fun e he => ⟨e.2, he⟩, fun e he => he⟩
  | cons entry rest ih =>
    obtain ⟨hall, hfrom⟩ := ih (enterOnce table entry)
    rw [List.foldl_cons]
    have hsub : ∀ e ∈ enterOnce table entry, e ∈ table ++ [entry] := by
      unfold enterOnce
      split
      · exact fun e he => List.mem_append_left _ he
      · exact fun e he => he
    have hkey : ∀ e ∈ table ++ [entry], ∃ v, (e.1, v) ∈ enterOnce table entry := by
      unfold enterOnce
      split
      · rename_i hsome
        intro e he
        rcases List.mem_append.1 he with he | he
        · exact ⟨e.2, he⟩
        · cases List.mem_singleton.1 he
          obtain ⟨v, hv⟩ := Option.isSome_iff_exists.1 hsome
          obtain ⟨before, after, hsplit, -⟩ := List.lookup_eq_some_iff.1 hv
          exact ⟨v, by rw [hsplit]; simp⟩
      · exact fun e he => ⟨e.2, he⟩
    rw [List.append_cons]
    constructor
    · intro e he
      rcases List.mem_append.1 he with he | he
      · obtain ⟨v, hv⟩ := hkey e he
        exact hall (e.1, v) (List.mem_append_left _ hv)
      · exact hall e (List.mem_append_right _ he)
    · intro e he
      rcases List.mem_append.1 (hfrom e he) with he | he
      · exact List.mem_append_left _ (hsub e he)
      · exact List.mem_append_right _ he

/-- Each family is shown, or another one of its key is shown in its place. -/
lemma exists_of_distinctFamilies {families shown : List Value}
    (h : distinctFamilies families = .ok shown) {family : Value} (hmem : family ∈ families) :
    ∃ other ∈ shown, other ∈ families ∧ other.key = family.key := by
  obtain ⟨keyed, hkeyed, h⟩ := bind_eq_ok.1 h
  cases h
  obtain ⟨hall, hfrom⟩ := exists_of_foldl_enterOnce keyed []
  have hpairs := forall₂_of_mapM hkeyed
  have hpair (family : Value) (entry : Key × Value)
      (hentry : (do return (← family.key, family)) = (.ok entry : Except Fault _)) :
      entry.2 = family ∧ family.key = .ok entry.1 := by
    obtain ⟨key, hkey, hentry⟩ := bind_eq_ok.1 hentry
    cases hentry
    exact ⟨rfl, hkey⟩
  obtain ⟨entry, hentry, hread⟩ := exists_of_mem_forall₂ hpairs.flip hmem
  obtain ⟨other, hother⟩ := hall entry hentry
  obtain ⟨source, hsource, hread'⟩ := exists_of_mem_forall₂ hpairs (hfrom _ hother)
  obtain ⟨rfl, hkey⟩ := hpair _ _ hread'
  refine ⟨other, List.mem_map_of_mem hother, hsource, ?_⟩
  exact hkey.trans (hpair _ _ hread).2.symm

lemma exists_mem_numberedFrom1 {α : Type} {items : List α} {item : α} (h : item ∈ items) :
    ∃ k, (k, item) ∈ numberedFrom1 items := by
  obtain ⟨i, hi⟩ := List.mem_iff_getElem?.1 h
  exact ⟨i + 1, List.mem_map.2 ⟨(item, i), List.mk_mem_zipIdx_iff_getElem?.2 hi, rfl⟩⟩

/-- The name of the token of a family, by its number. -/
def familyName (k : Nat) : Text := "font-family-" ++ toString k

/-- The table of the families, numbered. -/
def familyTokens (families : List Value) : Table Text Text :=
  (numberedFrom1 families).map fun family => (familyName family.1, literal '"' family.2.display)

lemma keyed_familyTokens (families : List Value) : Table.Keyed (familyTokens families) := by
  have hentries : familyTokens families =
      numberedEntries "font-family-" (families.map fun family => literal '"' family.display) :=
    map_numberedFrom1 "font-family-" (fun family : Value => literal '"' family.display) families
  rw [Table.Keyed, hentries]
  exact nodup_numberedEntries ..

/-- What the layers give: the families have numbered tokens behind those of the text sizes. -/
lemma families_of_harvest {layers : List Layer} (h : harvest layers = .ok tokens) :
    ∃ traits families sizes, layers.mapM traitsOf = .ok traits ∧
      distinctFamilies (traits.filterMap Traits.fontFamily) = .ok families ∧
      tokens.group .typography = Table.ofEntries (sizes ++ familyTokens families) := by
  obtain ⟨traits, htraits, h⟩ := bind_eq_ok.1 h
  obtain ⟨families, hfamilies, h⟩ := bind_eq_ok.1 h
  have htokens := Except.ok.inj h
  refine ⟨traits, families, (distinct (traits.filterMap Traits.fontSize)).map fun size =>
    ("font-size-" ++ size, size ++ "px"), htraits, hfamilies, ?_⟩
  rw [← htokens]
  have hentry : (fun family : Nat × Value =>
      (("font-family-" ++ toString family.1 : Text), ("\"" ++ family.2.display ++ "\"" : Text))) =
        fun family => (familyName family.1, literal '"' family.2.display) := by
    funext family
    exact Prod.ext rfl (ext_toList (by simp [literal]))
  unfold familyTokens
  rw [← hentry]
  rfl

lemma fontFamily_of_traitsOf {layer : Layer} {trait : Traits} (h : traitsOf layer = .ok trait) :
    trait.fontFamily = if (layer.typography.get "fontFamily").truthy
      then some (layer.typography.get "fontFamily") else none := by
  obtain ⟨color, -, h⟩ := bind_eq_ok.1 h
  dsimp only at h
  split at h
  · obtain ⟨size, -, h⟩ := bind_eq_ok.1 h
    exact congrArg Traits.fontFamily (Except.ok.inj h).symm
  · exact congrArg Traits.fontFamily (Except.ok.inj h).symm

/-- A family that the layers use has a token with the literal of it, or of one with the same key. -/
theorem exists_token_of_family {layers : List Layer} (h : harvest layers = .ok tokens) {layer : Layer}
    (hlayer : layer ∈ layers) (htruthy : (layer.typography.get "fontFamily").truthy = true) :
    ∃ k, ∃ other ∈ layers,
      (other.typography.get "fontFamily").key = (layer.typography.get "fontFamily").key ∧
      (familyName k, literal '"' (other.typography.get "fontFamily").display) ∈
        tokens.group .typography := by
  obtain ⟨traits, families, sizes, htraits, hfamilies, htokens⟩ := families_of_harvest h
  have hall := forall₂_of_mapM htraits
  obtain ⟨trait, htrait, hread⟩ := exists_of_mem_forall₂ hall.flip hlayer
  have hused : layer.typography.get "fontFamily" ∈ traits.filterMap Traits.fontFamily :=
    List.mem_filterMap.2 ⟨trait, htrait, by rw [fontFamily_of_traitsOf hread, if_pos htruthy]⟩
  obtain ⟨shown, hshown, hfrom, hkey⟩ := exists_of_distinctFamilies hfamilies hused
  obtain ⟨trait', htrait', hsome⟩ := List.mem_filterMap.1 hfrom
  obtain ⟨other, hother, hread'⟩ := exists_of_mem_forall₂ hall htrait'
  have hsame : other.typography.get "fontFamily" = shown := by
    rw [fontFamily_of_traitsOf hread'] at hsome
    split at hsome
    · exact Option.some.inj hsome
    · cases hsome
  obtain ⟨k, hk⟩ := exists_mem_numberedFrom1 hshown
  have hentry : (familyName k, literal '"' shown.display) ∈ familyTokens families :=
    List.mem_map.2 ⟨(k, shown), hk, rfl⟩
  -- No text size has the name of a family, and no other family has its number.
  have hkeyed := keyed_familyTokens families
  have hlookup : (tokens.group .typography).lookup (familyName k) =
      some (literal '"' shown.display) := by
    rw [htokens, Table.lookup_ofEntries, Table.lastValue_append, Table.lastValue_of_keyed hkeyed,
      Table.lookup_of_mem hkeyed hentry]
    rfl
  obtain ⟨before, after, hsplit, -⟩ := List.lookup_eq_some_iff.1 hlookup
  refine ⟨k, other, hother, (congrArg Value.key hsame).trans hkey, ?_⟩
  rw [hsame, hsplit]
  simp

/-- A token of an answer is contributed by one of its variables. -/
lemma exists_variable_of_mem {payload : Value} {value : Text}
    (h : (extractTokens payload).Gives (.ok tokens)) (hmem : (name, value) ∈ tokens.group group) :
    ∃ all, tableOf payload = .ok all ∧ ∃ v ∈ all,
      readVariable (indexOf all) v.1 v.2 = .ok (.token group name value) := by
  obtain ⟨all, readings, hall, hreadings, rfl⟩ := tokensOf_eq_ok (tokensOf_of_gives h)
  have hlookup := Table.lookup_of_mem (keyed_group_ofReadings readings group) hmem
  rw [group_ofReadings, Table.lookup_ofEntries] at hlookup
  obtain ⟨before, after, hsplit, -⟩ := List.lookup_eq_some_iff.1 hlookup
  have hentry : (name, value) ∈ entriesOf group (contributions readings) := by
    rw [← List.mem_reverse, hsplit]
    simp
  obtain ⟨c, hc, he⟩ := List.mem_map.1 hentry
  obtain ⟨hc, hgroup⟩ := List.mem_filter.1 hc
  obtain ⟨reading, hreading, hsome⟩ := List.mem_filterMap.1 hc
  obtain ⟨v, hv, hread⟩ := exists_of_mem_forall₂ (forall₂_of_readingsOf hreadings) hreading
  refine ⟨all, hall, v, hv, ?_⟩
  cases reading with
  | token group' name' value' =>
    cases hsome
    obtain rfl := of_decide_eq_true hgroup
    cases he
    exact hread
  | unnamed | unresolved | colorless => cases hsome

end

/-! ### All literals -/

/-- The tokens file has the text of a token between quotes, behind the property and behind the
variable. -/
def QuotesToken (name text : Text) (tokens : Tokens) : Prop :=
  Quotes '"' ("--" ++ name ++ ": ") text (tokensSheet tokens) ∧
    Quotes '"' ("$" ++ name ++ ": ") text (tokensSheet tokens)

/-- The texts that stand between quotes in style files: the families of a component and its elements,
the values of text variables, and the families that the layers use, one for each key. Each literal
denotes its text exactly when the text has no such quote, no backslash and no line end. -/
theorem quotes_denote_iff (files : FileMap) (component : Component) (payload : Value)
    (layers : List Layer) :
    (∀ sheet, stylesheet files component = .ok sheet →
      ∀ style, style = component.style ∨ style ∈ component.elements.map Element.style →
      ∀ text, style.text = some text → text.fontFamily.truthy = true →
        Quotes apostrophe "font-family: " text.fontFamily.display sheet) ∧
    (∀ tokens, (extractTokens payload).Gives (.ok tokens) →
      ∀ group name value, (name, value) ∈ tokens.group group →
      ∃ all, tableOf payload = .ok all ∧ ∃ v ∈ all,
        readVariable (indexOf all) v.1 v.2 = .ok (.token group name value) ∧
        ∀ type, v.2.field "resolvedType" = .ok type → type.isText "STRING" = true →
          ∃ found, resolvedValue (indexOf all) v.1 v.2 = .ok found ∧
            value = literal '"' found.display ∧ QuotesToken name found.display tokens) ∧
    (∀ tokens, harvest layers = .ok tokens →
      ∀ layer ∈ layers, (layer.typography.get "fontFamily").truthy = true →
      ∃ k, ∃ other ∈ layers,
        (other.typography.get "fontFamily").key = (layer.typography.get "fontFamily").key ∧
        QuotesToken (familyName k) (other.typography.get "fontFamily").display tokens) := by
  refine ⟨?_, ?_, ?_⟩
  · intro sheet h style hstyle text htext hfamily
    exact quotes_stylesheet h hstyle htext hfamily
  · intro tokens h group name value hmem
    obtain ⟨all, hall, v, hv, hread⟩ := exists_variable_of_mem h hmem
    refine ⟨all, hall, v, hv, hread, fun type htype hstring => ?_⟩
    obtain ⟨found, hfound, rfl⟩ := literal_of_readVariable htype hstring hread
    exact ⟨found, hfound, rfl, quotes_tokensSheet hmem⟩
  · intro tokens h layer hlayer htruthy
    obtain ⟨k, other, hother, hkey, hmem⟩ := exists_token_of_family h hlayer htruthy
    exact ⟨k, other, hother, hkey, quotes_tokensSheet hmem⟩

/-- A card with a title in a font family. -/
def titleCard (family : Text) : LayerTree :=
  .node (plainLayer "1:1" "Card" "COMPONENT") [
    .node { plainLayer "1:2" "Title" "TEXT" with
      characters := .text "Hello"
      typography := [(.text "fontFamily", .text family)] } []]

/-- The families of the card's elements, once its style sheet is rendered. -/
def titleFamilies (family : Text) : Except Fault (List (Option (Bool × Text))) := do
  let (component, _) ← annotate .standard [] (titleCard family) "Card"
  let _ ← stylesheet [] component
  return component.elements.map fun e =>
    e.style.text.map fun text => (text.fontFamily.truthy, text.fontFamily.display)

lemma exists_of_titleFamilies (family : Text)
    (h : (titleFamilies family).toOption = some [some (true, family)]) :
    ∃ component roles' sheet, annotate .standard [] (titleCard family) "Card" =
        .ok (component, roles') ∧ stylesheet [] component = .ok sheet ∧
      ∃ style ∈ component.elements.map Element.style, ∃ text, style.text = some text ∧
        text.fontFamily.truthy = true ∧ text.fontFamily.display = family := by
  obtain ⟨⟨component, roles'⟩, hcomponent, h⟩ := bind_eq_ok.1 (eq_ok_of_toOption h)
  obtain ⟨sheet, hsheet, h⟩ := bind_eq_ok.1 h
  refine ⟨component, roles', sheet, hcomponent, hsheet, ?_⟩
  have hmem : some (true, family) ∈ component.elements.map fun e =>
      e.style.text.map fun text => (text.fontFamily.truthy, text.fontFamily.display) := by
    rw [Except.ok.inj h]
    exact List.mem_singleton_self _
  obtain ⟨e, he, hfamily⟩ := List.mem_map.1 hmem
  obtain ⟨text, htext, hpair⟩ := Option.map_eq_some_iff.1 hfamily
  obtain ⟨htruthy, hdisplay⟩ := Prod.mk.inj hpair
  exact ⟨e.style, List.mem_map_of_mem he, text, htext, htruthy, hdisplay⟩

theorem quotes_denote_iff_inter : ∃ component roles' sheet before after,
    annotate .standard [] (titleCard "Inter") "Card" = .ok (component, roles') ∧
    stylesheet [] component = .ok sheet ∧
    sheet = before ++ "font-family: " ++ literal apostrophe "Inter" ++ after ∧
    readLiteral (literal apostrophe "Inter" ++ after).toList =
      some (("Inter" : Text).toList, after.toList) := by
  obtain ⟨component, roles', sheet, hcomponent, hsheet, style, hstyle, text, htext, htruthy,
    hfamily⟩ := exists_of_titleFamilies "Inter" (by decide +kernel)
  obtain ⟨before, after, heq, hread⟩ :=
    (quotes_denote_iff [] component .null []).1 sheet hsheet style (.inr hstyle) text htext htruthy
  rw [hfamily] at heq hread
  exact ⟨component, roles', sheet, before, after, hcomponent, hsheet, heq, hread.2 (by decide)⟩

/-- The apostrophe of a family ends its literal: what is read is shorter than the name, and the rest of
the name comes behind. -/
theorem readLiteral_oneil : ∃ component roles' sheet before after,
    annotate .standard [] (titleCard "O'Neil") "Card" = .ok (component, roles') ∧
    stylesheet [] component = .ok sheet ∧
    sheet = before ++ "font-family: " ++ literal apostrophe "O'Neil" ++ after ∧
    readLiteral (literal apostrophe "O'Neil" ++ after).toList =
      some (("O" : Text).toList, ("Neil'" ++ after).toList) ∧
    readLiteral (literal apostrophe "O'Neil" ++ after).toList ≠
      some (("O'Neil" : Text).toList, after.toList) := by
  obtain ⟨component, roles', sheet, hcomponent, hsheet, style, hstyle, text, htext, htruthy,
    hfamily⟩ := exists_of_titleFamilies "O'Neil" (by decide +kernel)
  obtain ⟨before, after, heq, hread⟩ := quotes_stylesheet hsheet (.inr hstyle) htext htruthy
  rw [hfamily] at heq hread
  exact ⟨component, roles', sheet, before, after, hcomponent, hsheet, heq, rfl,
    fun hwhole => absurd (hread.1 hwhole) (by decide)⟩

end Handoff.Token
