import Handoff.Proofs.Asset.NodeIds
import Handoff.Proofs.Component.Series
import Handoff.Proofs.Component.Slots
import Handoff.Proofs.Render.Scoping

/-!
The identifiers of a template: what it imports, declares and takes as properties are distinct
identifiers, and its markup uses no others.
-/

namespace Handoff.Render

open Asset Design Files Text

/-! ### Identifiers -/

/-- The words that no script can bind. -/
def reservedWords : List Text :=
  ["arguments", "await", "break", "case", "catch", "class", "const", "continue", "debugger", "default",
   "delete", "do", "else", "enum", "eval", "export", "extends", "false", "finally", "for", "function",
   "if", "implements", "import", "in", "instanceof", "interface", "let", "new", "null", "package",
   "private", "protected", "public", "return", "static", "super", "switch", "this", "throw", "true",
   "try", "typeof", "var", "void", "while", "with", "yield"]

/-- A text that a script can bind: letters, digits and underscores, no digit in front, and not
reserved. -/
structure IsIdentifier (text : Text) : Prop where
  chars : Over isHandleChar text
  start : text.toList.head?.any (fun c => !isNumeralChar c) = true
  free : text ∉ reservedWords

instance : DecidablePred IsIdentifier := fun text =>
  decidable_of_iff ((∀ c ∈ text.toList, isHandleChar c = true) ∧
      text.toList.head?.any (fun c => !isNumeralChar c) = true ∧ text ∉ reservedWords)
    ⟨fun h => ⟨h.1, h.2.1, h.2.2⟩, fun h => ⟨h.chars, h.start, h.free⟩⟩

lemma IsIdentifier.ne_empty {text : Text} (h : IsIdentifier text) : text ≠ "" := by
  rintro rfl
  cases h.start

/-- Reserved words are small letters. -/
lemma reservedWords_over : ∀ word ∈ reservedWords, ∀ c ∈ word.toList,
    isCapital c = false ∧ isNumeralChar c = false ∧ c ≠ '_' := by
  decide +kernel

lemma notMem_reservedWords {text : Text} {c : CodePoint} (hc : c ∈ text.toList)
    (h : isCapital c = true ∨ isNumeralChar c = true ∨ c = '_') : text ∉ reservedWords := by
  intro hmem
  obtain ⟨hcapital, hnumeral, hscore⟩ := reservedWords_over text hmem c hc
  rcases h with h | h | h
  · rw [hcapital] at h
    cases h
  · rw [hnumeral] at h
    cases h
  · exact hscore h

/-- A component name can be bound. -/
lemma isIdentifier_of_large {name : Text} (hword : Over isWordChar name) (h : BeginsLarge name) :
    IsIdentifier name := by
  obtain ⟨c, rest, hl, hc⟩ := beginsLarge_iff.1 h
  refine ⟨hword.mono fun _ => isHandleChar_of_word, ?_, ?_⟩
  · have hdigit : isNumeralChar c = false := by
      have hcapital := isCapital_iff.1 hc
      rw [Bool.eq_false_iff, Ne, isNumeralChar_iff]
      omega
    rw [hl]
    simpa using hdigit
  · exact notMem_reservedWords (by rw [hl]; exact List.mem_cons_self) (Or.inl hc)

/-- The identifier of a picture's file can be bound, and has an underscore. -/
lemma isIdentifier_handle {layer : Layer} {format : ExportFormat} {file : Text}
    (h : fileName layer format = .ok file) :
    IsIdentifier (handle file) ∧ .char '_' ∈ (handle file).toList := by
  obtain ⟨lead, id, ext, -, -, -, hhandle⟩ := exists_handle_fileName h
  have hscore : .char '_' ∈ (handle file).toList := by
    rw [hhandle]
    simp
  refine ⟨⟨over_handle file, ?_, notMem_reservedWords hscore (Or.inr (Or.inr rfl))⟩, hscore⟩
  obtain ⟨stem, hfile, -⟩ := isFileName_of_fileName h
  obtain ⟨c, rest, hl, -⟩ := hfile.exists_cons
  have hname : file.toList.map (fun c => if isWordChar c then c else '_') =
      flat c :: rest.map flat := by
    rw [hl]
    rfl
  unfold handle
  simp only [hname]
  -- A digit in front is kept behind a word.
  by_cases hdigit : isNumeralChar (flat c) = true
  · have hlead : (('0' : CodePoint) ≤ flat c && flat c ≤ '9') = true := hdigit
    rw [hlead]
    rfl
  · have hlead : (('0' : CodePoint) ≤ flat c && flat c ≤ '9') = false :=
      Bool.eq_false_iff.2 hdigit
    rw [hlead]
    simpa using hdigit

lemma exists_digit_mem (n : Nat) :
    ∃ c ∈ (toString n : Text).toList, isNumeralChar c = true := by
  have hne : (toString n).toList ≠ [] := by
    rw [Nat.toString_eq_repr, Nat.toList_repr]
    exact Nat.toDigits_ne_nil
  obtain ⟨c, hc⟩ := List.exists_mem_of_ne_nil _ hne
  have hmem : .char c ∈ (toString n : Text).toList := List.mem_map_of_mem hc
  exact ⟨c, hmem, over_numeral n c hmem⟩

/-- A text property can be bound, and has a digit. -/
lemma isIdentifier_slotName (slot : Nat) :
    IsIdentifier (slotName slot) ∧ ∃ c ∈ (slotName slot).toList, isNumeralChar c = true := by
  obtain ⟨c, hc, hdigit⟩ := exists_digit_mem slot
  have hmem : c ∈ (slotName slot).toList := List.mem_append_right _ hc
  refine ⟨⟨over_slotName slot, rfl, ?_⟩, c, hmem, hdigit⟩
  exact notMem_reservedWords hmem (Or.inr (Or.inl hdigit))

lemma slotName_inj {i j : Nat} (h : slotName i = slotName j) : i = j := numbered_inj h

end Handoff.Render
