import Handoff.Component.Artifacts
import Handoff.Proofs.Files.Names
import Handoff.Proofs.Render.Printing

/-!
The tags of templates and twig files can be read: whatever a layer is called, its description stays
inside its attribute.
-/

namespace Handoff.Render

open Asset Design Text Reader

/-- The markup of templates. -/
def scriptGrammar : Grammar := ⟨scriptDialect, true⟩

/-- The markup of twig files. -/
def plainGrammar : Grammar := ⟨plainDialect, false⟩

lemma proper_scriptGrammar : scriptGrammar.Proper := ⟨by decide, by decide, by decide⟩

lemma proper_plainGrammar : plainGrammar.Proper := ⟨by decide, by decide, by decide⟩

variable {frames : List Frame} {done : Forest Text} {tag : OpenTag} {name : List CodePoint}

/-! ### Unquoted texts -/

instance : DecidablePred Unquoted := fun text => inferInstanceAs (Decidable (∀ c ∈ text.toList, _))

lemma unquoted_append {a b : Text} : Unquoted (a ++ b) ↔ Unquoted a ∧ Unquoted b := by
  simp only [Unquoted, toList_append, List.forall_mem_append]

lemma unquoted_of_over {p : CodePoint → Bool} {text : Text} (h : Over p text)
    (hp : p '"' = false) : Unquoted text := by
  rintro c hc rfl
  rw [h _ hc] at hp
  cases hp

lemma ne_quote_of_mem_escapeMarkupChar {c d : CodePoint} (h : c ∈ escapeMarkupChar d) : c ≠ '"' := by
  revert c
  change ∀ c ∈ escapeMarkupChar d, c ≠ '"'
  unfold escapeMarkupChar
  split_ifs with h1 h2 h3 h4 h5
  · decide
  · decide
  · decide
  · decide
  · decide
  · simpa using h4

lemma unquoted_escapeMarkup (text : Text) : Unquoted (escapeMarkup text) := by
  intro c hc
  obtain ⟨d, -, hd⟩ := List.mem_flatMap.1 hc
  exact ne_quote_of_mem_escapeMarkupChar hd

/-! ### Values between braces -/

lemma run_bracedCode {g : Grammar} {text : List CodePoint} (h : IsCode text) :
    run g ⟨.braced tag 0 .code, frames, done⟩ text = some ⟨.braced tag 0 .code, frames, done⟩ := by
  induction text with
  | nil => rfl
  | cons c rest ih =>
    obtain ⟨⟨-, h2, h3, h4, h5, h6, h7⟩, hrest⟩ := List.forall_mem_cons.1 h
    have hstep : step g ⟨.braced tag 0 .code, frames, done⟩ c =
        some ⟨.braced tag 0 .code, frames, done⟩ := by
      simp [step, bracedStep, Position.next, h2, h3, h4, h5, h6, h7]
    rw [run_cons, hstep, Option.bind_some, ih hrest]

/-- The characters of a literal stay inside it. -/
lemma run_literal {g : Grammar} (text : List CodePoint) :
    run g ⟨.braced tag 0 .literal, frames, done⟩ (text.flatMap escapeScriptChar) =
      some ⟨.braced tag 0 .literal, frames, done⟩ := by
  induction text with
  | nil => rfl
  | cons c rest ih =>
    have hstep : run g ⟨.braced tag 0 .literal, frames, done⟩ (escapeScriptChar c) =
        some ⟨.braced tag 0 .literal, frames, done⟩ := by
      unfold escapeScriptChar
      split_ifs with h1 h2 h3 h4
      · rfl
      · rfl
      · rfl
      · rfl
      · simp [step, bracedStep, Position.next, h1, h2, h3, h4]
    rw [List.flatMap_cons, run_append_of_eq hstep, ih]

lemma run_brace (hname : name ≠ scriptDialect.classAttribute.toList) :
    run scriptGrammar ⟨.value tag name, frames, done⟩ ("\x7b" : Text).toList =
      some ⟨.braced tag 0 .code, frames, done⟩ := by
  simp [step, scriptGrammar, hname]

lemma isValue_code {text : Text} (h : IsCode text.toList) :
    IsValue scriptGrammar (braced text) := by
  intro tag name frames done hname
  simp only [braced, toList_append, List.append_assoc]
  rw [run_append_of_eq (run_brace hname), run_append_of_eq (run_bracedCode h)]
  rfl

lemma isValue_literal {lead : Text} (h : IsCode lead.toList) (text : Text) :
    IsValue scriptGrammar (braced (lead ++ scriptLiteral text)) := by
  intro tag name frames done hname
  have hquote : run scriptGrammar ⟨.braced tag 0 .code, frames, done⟩ [.char apostrophe] =
      some ⟨.braced tag 0 .literal, frames, done⟩ := rfl
  have hclose : run scriptGrammar ⟨.braced tag 0 .literal, frames, done⟩
      ([.char apostrophe] ++ ("\x7d" : Text).toList) = some ⟨.attribute tag [], frames, done⟩ := rfl
  have hliteral : (scriptLiteral text).toList =
      [.char apostrophe] ++ (text.toList.flatMap escapeScriptChar ++ [.char apostrophe]) := rfl
  simp only [braced, toList_append, hliteral, List.append_assoc]
  rw [run_append_of_eq (run_brace hname), run_append_of_eq (run_bracedCode h),
    run_append_of_eq hquote, run_append_of_eq (run_literal _)]
  exact hclose

/-! ### Code -/

/-- The characters of identifiers. -/
def isHandleChar (c : CodePoint) : Bool := isWordChar c || c == '_'

lemma isCode_of_handle {text : Text} (h : Over isHandleChar text) : IsCode text.toList := by
  intro c hc
  have hchar := h c hc
  refine ⟨?_, ?_, ?_, ?_, ?_, ?_, ?_⟩ <;>
  · rintro rfl
    exact absurd hchar (by decide)

lemma over_handle (file : Text) : Over isHandleChar (handle file) := by
  have hname : Over isHandleChar
      (ofList (file.toList.map fun c => if isWordChar c then c else '_')) := by
    intro c hc
    obtain ⟨d, -, rfl⟩ := List.mem_map.1 hc
    split
    · rename_i hd
      simp [isHandleChar, hd]
    · decide
  have hlead (b : Bool) : Over isHandleChar (if b then "asset_" else "" : Text) := by
    cases b <;> exact over_ofString (by decide)
  exact over_append.2 ⟨hlead _, hname⟩

lemma isHandleChar_of_word {c : CodePoint} (h : isWordChar c = true) : isHandleChar c = true := by
  simp [isHandleChar, h]

lemma wordy_slotName (slot : Nat) : Over isWordChar (slotName slot) :=
  over_append.2
    ⟨over_ofString (by decide), (over_numeral slot).mono fun _ => isWordChar_of_numeral⟩

lemma over_slotName (slot : Nat) : Over isHandleChar (slotName slot) :=
  (wordy_slotName slot).mono fun _ => isHandleChar_of_word

/-- A property between braces inside an element shows no element. -/
lemma isInline_code {text : Text} (h : IsCode text.toList) :
    IsInline scriptGrammar (braced text) := by
  intro frames done hf
  have hopen : run scriptGrammar ⟨.content, frames, done⟩ ("\x7b" : Text).toList =
      some ⟨.script .code, .choice 0 [] :: frames, done⟩ := rfl
  have hclose : run scriptGrammar ⟨.script .code, .choice 0 [] :: frames, done⟩
      ("\x7d" : Text).toList = some (add [] frames done) := rfl
  simp only [braced, toList_append, List.append_assoc]
  rw [run_append_of_eq hopen, run_append_of_eq (run_code h), hclose, add_nil hf]

/-- In plain markup, text goes on up to the next tag. -/
lemma isInline_plain {text : Text} (h : ∀ c ∈ text.toList, c ≠ '<') :
    IsInline plainGrammar text := by
  intro frames done _
  generalize text.toList = l at h
  induction l with
  | nil => rfl
  | cons c rest ih =>
    obtain ⟨hc, hrest⟩ := List.forall_mem_cons.1 h
    have hstep : step plainGrammar ⟨.content, frames, done⟩ c = some ⟨.content, frames, done⟩ :=
      if_neg hc
    rw [run_cons, hstep, Option.bind_some, ih hrest]

/-! ### What tags show -/

/-- What the tag of a picture shows: its file, a property, or the one unless there is the other. -/
inductive PictureContent (files : FileMap) (element : Element) : Bool → Content → Prop
  | replaceable {file : Text} (alt : Text) (hfile : files.file? element.key = some file) :
      PictureContent files element true (.picture (braced ("imageSrc || " ++ handle file))
        (braced ("imageAlt || " ++ scriptLiteral alt)))
  | supplied (alt : Text) (hfile : files.file? element.key = none) :
      PictureContent files element true
        (.pictureIf "imageSrc" (braced ("imageAlt || " ++ scriptLiteral alt)))
  | shown {file : Text} (alt : Text) (hfile : files.file? element.key = some file) :
      PictureContent files element false
        (.picture (braced (handle file)) (quoted (escapeMarkup alt)))
  | missing (hfile : files.file? element.key = none) : PictureContent files element false .box

/-- What the tag of an element in a template shows. -/
inductive TemplateContent (files : FileMap) (component : Component) (element : Element) :
    Content → Prop
  | picture {content : Content} (hasset : element.isAsset = true)
      (h : PictureContent files element (isPrimary component element) content) :
      TemplateContent files component element content
  | text {slot : Nat} (hasset : ¬ element.isAsset = true) (hslot : element.slot = some slot) :
      TemplateContent files component element (.span (braced (slotName slot)))
  | box (hasset : ¬ element.isAsset = true) (hslot : element.slot = none) :
      TemplateContent files component element .box

/-- What the tag of an element in a twig file shows. -/
inductive TwigContent (files : FileMap) (assetsPath : Text) (element : Element) : Content → Prop
  | picture {file : Text} (alt : Text) (hasset : element.isAsset = true)
      (hfile : files.file? element.key = some file) :
      TwigContent files assetsPath element
        (.picture (quoted (printed ("file_url('" ++ assetsPath ++ "/" ++ file ++ "')")))
          (quoted (escapeMarkup alt)))
  | missing (hasset : element.isAsset = true) (hfile : files.file? element.key = none) :
      TwigContent files assetsPath element .box
  | text {slot : Nat} (hasset : ¬ element.isAsset = true) (hslot : element.slot = some slot) :
      TwigContent files assetsPath element (.span (printed ("content.field_" ++ slotName slot)))
  | box (hasset : ¬ element.isAsset = true) (hslot : element.slot = none) :
      TwigContent files assetsPath element .box

variable {files : FileMap} {component : Component} {element : Element} {t : Tag}

lemma content_of_pictureTag {primary : Bool} {cssClass : Text}
    (h : pictureTag files primary element cssClass = .ok t) :
    t.cssClass = cssClass ∧ PictureContent files element primary t.content := by
  unfold pictureTag at h
  split at h
  · rename_i hfile
    obtain ⟨alt, -, h⟩ := bind_eq_ok.1 h
    cases h
    exact ⟨rfl, .replaceable alt hfile⟩
  · rename_i hfile
    obtain ⟨alt, -, h⟩ := bind_eq_ok.1 h
    cases h
    exact ⟨rfl, .supplied alt hfile⟩
  · rename_i hfile
    obtain ⟨alt, -, h⟩ := bind_eq_ok.1 h
    cases h
    exact ⟨rfl, .shown alt hfile⟩
  · rename_i hfile
    cases h
    exact ⟨rfl, .missing hfile⟩

/-- The tag of an element in a template has the class of the element. -/
theorem content_of_templateTag (h : templateTag files component element = .ok t) :
    t.cssClass = element.cssClass component.name ∧
      TemplateContent files component element t.content := by
  unfold templateTag at h
  dsimp only at h
  split at h
  · rename_i hasset
    obtain ⟨hclass, hcontent⟩ := content_of_pictureTag h
    exact ⟨hclass, .picture hasset hcontent⟩
  · rename_i hasset
    split at h
    · rename_i hslot
      cases h
      exact ⟨rfl, .text hasset hslot⟩
    · rename_i hslot
      cases h
      exact ⟨rfl, .box hasset hslot⟩

/-- The tag of an element in a twig file has the class of the element, put together from the base. -/
theorem content_of_twigTag {assetsPath : Text} (h : twigTag files assetsPath element = .ok t) :
    t.cssClass = twigClass element ∧ TwigContent files assetsPath element t.content := by
  unfold twigTag at h
  dsimp only at h
  split at h
  · rename_i hasset
    split at h
    · rename_i hfile
      obtain ⟨alt, -, h⟩ := bind_eq_ok.1 h
      cases h
      exact ⟨rfl, .picture alt hasset hfile⟩
    · rename_i hfile
      cases h
      exact ⟨rfl, .missing hasset hfile⟩
  · rename_i hasset
    split at h
    · rename_i hslot
      cases h
      exact ⟨rfl, .text hasset hslot⟩
    · rename_i hslot
      cases h
      exact ⟨rfl, .box hasset hslot⟩

/-! ### Tags that can be read -/

lemma PictureContent.isReadable {primary : Bool} {content : Content}
    (h : PictureContent files element primary content) : IsReadable scriptGrammar content := by
  have hhandle (file : Text) := isCode_of_handle (over_handle file)
  cases h with
  | replaceable alt _ =>
    have hlead : IsCode ("imageSrc || " : Text).toList := by decide
    exact ⟨isValue_code (hlead.append (hhandle _)), isValue_literal (by decide) _⟩
  | supplied alt _ => exact ⟨rfl, by decide, isValue_code (by decide), isValue_literal (by decide) _⟩
  | shown alt _ => exact ⟨isValue_code (hhandle _), isValue_quoted (unquoted_escapeMarkup _)⟩
  | missing _ => trivial

lemma TemplateContent.isReadable {content : Content}
    (h : TemplateContent files component element content) : IsReadable scriptGrammar content := by
  cases h with
  | picture _ h => exact h.isReadable
  | text _ _ => exact isInline_code (isCode_of_handle (over_slotName _))
  | box _ _ => trivial

/-- The tag of an element in a template can be read. -/
lemma readable_templateTag (hc : Unquoted (element.cssClass component.name))
    (h : templateTag files component element = .ok t) :
    t.cssClass = element.cssClass component.name ∧ Readable scriptGrammar t := by
  obtain ⟨hclass, hcontent⟩ := content_of_templateTag h
  refine ⟨hclass, ?_, hcontent.isReadable⟩
  rwa [hclass]

/-- The files of a map are file names of pictures. -/
def AreFileNames (files : FileMap) : Prop :=
  ∀ key file, files.lookup key = some (some file) →
    ∃ layer format, fileName layer format = .ok file

lemma AreFileNames.unquoted (h : AreFileNames files) {key : Key} {file : Text}
    (hf : files.file? key = some file) : Unquoted file := by
  obtain ⟨layer, format, hname⟩ := h key file (Files.lookup_of_file hf)
  obtain ⟨stem, hfile, -⟩ := Files.isFileName_of_fileName hname
  rw [hfile.eq]
  refine unquoted_append.2 ⟨unquoted_of_over hfile.stem_over (by decide), ?_⟩
  cases format <;> decide

lemma TwigContent.isReadable (hfiles : AreFileNames files) {content : Content}
    (h : TwigContent files twigAssetsPath element content) : IsReadable plainGrammar content := by
  cases h with
  | @picture file alt _ hfile =>
    have hlead : Unquoted ("\x7b\x7b " ++ ("file_url('" ++ twigAssetsPath ++ "/") : Text) := by decide
    have hsource : Unquoted (printed ("file_url('" ++ twigAssetsPath ++ "/" ++ file ++ "')")) := by
      simp only [printed, unquoted_append] at hlead ⊢
      exact ⟨⟨hlead.1, ⟨hlead.2, hfiles.unquoted hfile⟩, by decide⟩, by decide⟩
    exact ⟨isValue_quoted hsource, isValue_quoted (unquoted_escapeMarkup _)⟩
  | missing _ _ => trivial
  | @text slot _ _ =>
    have hslot := isCode_of_handle (over_slotName slot)
    refine isInline_plain ?_
    simp only [printed, toList_append, List.forall_mem_append]
    exact ⟨⟨by decide, by decide, fun c hc => (hslot c hc).1⟩, by decide⟩
  | box _ _ => trivial

/-- The tag of an element in a twig file can be read. -/
lemma readable_twigTag (hfiles : AreFileNames files) (hc : Unquoted element.elementClass)
    (h : twigTag files twigAssetsPath element = .ok t) :
    t.cssClass = twigClass element ∧ Readable plainGrammar t := by
  obtain ⟨hclass, hcontent⟩ := content_of_twigTag h
  refine ⟨hclass, ?_, hcontent.isReadable hfiles⟩
  rw [hclass]
  exact unquoted_append.2 ⟨by decide, hc⟩

end Handoff.Render
