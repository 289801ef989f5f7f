import Handoff.Proofs.Component.Elements
import Handoff.Proofs.Data.Table
import Handoff.Proofs.Render.Identifiers
import Handoff.Proofs.Render.Pictures
import Mathlib.Data.List.Nodup

/-!
A template binds distinct identifiers, and its markup uses no others.

What is bound are the imports, the component and its properties. They cannot be mixed up: identifiers
of pictures have an underscore, components a capital in front, text properties a number, and the other
properties none of these.
-/

namespace Handoff.Render

open Asset Design Files Reader Scope Text

/-! ### Templates taken apart -/

/-- A template as a script: what it imports besides the library, each identifier with its source, the
function that it exports with its properties, and the markup that the function returns. -/
structure Script where
  name : Text
  imports : List (Text × Text)
  comment : Lines
  parameters : List Property
  markup : Lines

/-- The line that imports a source under an identifier. -/
def importLine (name source : Text) : Text := "import " ++ name ++ " from '" ++ source ++ "';"

namespace Script

/-- The text of a script. -/
def text (script : Script) : Text := unlines (
  (["import React from 'react';", "import './" ++ script.name ++ ".scss';"] : Lines) ++
  (script.imports.map fun i => importLine i.1 i.2) ++
  script.comment ++
  (["export const " ++ script.name ++ " = (\x7b"] : Lines) ++
  script.parameters.map Property.line ++
  (["  ...props", "\x7d) => \x7b", "  return ("] : Lines) ++
  script.markup ++
  (["  );", "\x7d;", "", "export default " ++ script.name ++ ";", ""] : Lines))

/-- The identifiers that a script binds. -/
def bound (script : Script) : List Text :=
  (["React"] : List Text) ++ script.imports.map Prod.fst ++ [script.name] ++
    script.parameters.map Property.name ++ (["props"] : List Text)

/-- A script binds distinct identifiers, and its markup uses none but them. -/
structure IsScoped (script : Script) : Prop where
  identifiers : ∀ n ∈ script.bound, IsIdentifier n
  distinct : script.bound.Nodup
  used : ∃ names, usedNames (unlines script.markup).toList = some names ∧
    ∀ n ∈ names, n ∈ script.bound

end Script

/-- The script of a component. -/
def scriptOf (files : FileMap) (component : Component) (assetsImport : Text)
    (properties : List Property) (markup : Markup) : Script where
  name := component.name
  imports := (shownFiles files component).map fun file => (handle file, assetsImport ++ "/" ++ file)
  comment := headLines component
  parameters := properties
  markup := rootBox component :: forestLines scriptDialect 3 markup ++ (["    </div>"] : Lines)

variable {files : FileMap} {component : Component} {assetsImport text : Text}
  {ps : List Property} {markup : Markup} {names : List Text} {e : Element}

/-- A template is the text of its script. -/
lemma exists_script (h : template files component assetsImport = .ok text) :
    ∃ ps markup, properties component = .ok ps ∧ templateMarkup files component = .ok markup ∧
      text = (scriptOf files component assetsImport ps markup).text := by
  obtain ⟨ps, hps, h⟩ := bind_eq_ok.1 h
  obtain ⟨markup, hmarkup, h⟩ := bind_eq_ok.1 h
  cases h
  refine ⟨ps, markup, hps, hmarkup, ?_⟩
  have himports : importLines files component assetsImport =
      (["import React from 'react';", "import './" ++ component.name ++ ".scss';"] : Lines) ++
        ((shownFiles files component).map fun file =>
          (handle file, assetsImport ++ "/" ++ file)).map fun i => importLine i.1 i.2 := by
    simp only [importLines, List.map_map, List.cons_append, List.nil_append, List.cons.injEq, true_and]
    refine List.map_congr_left fun file _ => ?_
    simp only [Function.comp, importLine, append_assoc]
  rw [himports]
  simp only [Script.text, scriptOf, List.append_assoc, List.cons_append, List.nil_append]

/-- The properties of a component: the class, its texts and, with pictures, the first one's. -/
lemma names_of_properties (h : properties component = .ok ps) :
    ps.map Property.name = (["className"] : List Text) ++ component.textProps.map Prod.fst ++
      if component.hasAssets then (["imageSrc", "imageAlt"] : List Text) else [] := by
  obtain ⟨texts, htexts, h⟩ := bind_eq_ok.1 h
  cases h
  have hnames : texts.map Property.name = component.textProps.map Prod.fst := by
    refine map_eq_of_mapM_eq_ok (fun prop property hproperty => ?_) htexts
    obtain ⟨value, -, hproperty⟩ := bind_eq_ok.1 hproperty
    cases hproperty
    rfl
  rw [List.cons_append, List.map_cons, List.map_append, hnames, imageProperties]
  split <;> rfl

/-! ### What tags use -/

/-- A text of identifier characters. -/
structure IsName (name : Text) : Prop where
  chars : Over isHandleChar name
  ne_empty : name ≠ ""

lemma IsIdentifier.isName {name : Text} (h : IsIdentifier name) : IsName name := ⟨h.chars, h.ne_empty⟩

section

variable {context : Context} {name : Text} {found : List Text}

/-- An expression between braces, of an attribute or inside an element. -/
lemma uses_braced (hplace : context = .opening ∨ context = .content) {text : Text}
    (h : Uses found [.code] (text ++ "\x7d").toList []) :
    Uses found [context] (braced text).toList [context] := by
  have hopen : Uses [] [context] ("\x7b" : Text).toList [.code, context] := by
    rcases hplace with rfl | rfl <;> exact .of_silent fun _ _ => rfl
  have hpieces : (braced text).toList = ("\x7b" : Text).toList ++ (text ++ "\x7d").toList := by
    simp only [braced, toList_append, List.append_assoc]
  rw [hpieces]
  exact hopen.append (h.inside [context])

/-- An identifier up to the brace behind it. -/
lemma uses_closed (h : IsName name) : Uses [name] [.code] (name ++ "\x7d").toList [] :=
  uses_name h.chars h.ne_empty ⟨by decide, by decide⟩ rfl

lemma uses_bracedName (hplace : context = .opening ∨ context = .content) (h : IsName name) :
    Uses [name] [context] (braced name).toList [context] :=
  uses_braced hplace (uses_closed h)

/-- An identifier up to the blank behind it. -/
lemma uses_spaced (h : IsName name) : Uses [name] [.code] (name ++ " ").toList [.code] :=
  uses_name h.chars h.ne_empty ⟨by decide, by decide⟩ rfl

/-- An identifier and what stands in for it. -/
lemma uses_or (h : IsName name) {text : Text} {after : List Context}
    (htext : Uses found [.code] text.toList after) :
    Uses (name :: found) [.code] (name ++ " || " ++ text).toList after := by
  have hor : Uses [] [.code] ("|| " : Text).toList [.code] := .of_silent fun _ _ => rfl
  have hpieces : (name ++ " || " ++ text).toList =
      (name ++ " ").toList ++ (("|| " : Text).toList ++ text.toList) := by
    simp only [toList_append, List.append_assoc]
    rfl
  rw [hpieces]
  exact (uses_spaced h).append (hor.append htext)

end

lemma isIdentifier_imageSrc : IsIdentifier "imageSrc" := by decide +kernel

lemma isIdentifier_imageAlt : IsIdentifier "imageAlt" := by decide +kernel

lemma usesValue_alt (alt : Text) :
    UsesValue ["imageAlt"] (braced ("imageAlt || " ++ scriptLiteral alt)) := by
  have hclose : Uses [] [.code] (scriptLiteral alt ++ "\x7d").toList [] :=
    (uses_scriptLiteral alt).append (.of_silent fun _ _ => rfl)
  have hpieces : ("imageAlt || " ++ scriptLiteral alt ++ "\x7d" : Text) =
      "imageAlt" ++ " || " ++ (scriptLiteral alt ++ "\x7d") := append_assoc _ _ _
  refine uses_braced (Or.inl rfl) ?_
  rw [hpieces]
  exact uses_or isIdentifier_imageAlt.isName hclose

lemma isName_handle {key : Key} {file : Text} (h : files.file? key = some file) :
    IsName (handle file) := by
  refine ⟨over_handle file, fun hempty => ?_⟩
  have hfile : file.isEmpty = false := by
    unfold FileMap.file? at h
    split at h
    · split at h
      · cases h
      · rename_i hne
        cases h
        simpa using hne
    · cases h
  have hlist := congrArg toList hempty
  simp only [handle, toList_append] at hlist
  have hmap := (List.append_eq_nil_iff.1 hlist).2
  simp [Text.isEmpty, List.map_eq_nil_iff.1 hmap] at hfile

/-- The identifiers that a picture uses: that of its file and, the first one, the image properties. -/
def pictureUses (files : FileMap) (primary : Bool) (e : Element) : List Text :=
  match primary, files.file? e.key with
  | true, some file => ["imageSrc", handle file, "imageAlt"]
  | true, none => ["imageSrc", "imageSrc", "imageAlt"]
  | false, some file => [handle file]
  | false, none => []

/-- The identifiers that an element uses in a template. -/
def usesOf (files : FileMap) (component : Component) (e : Element) : List Text :=
  if e.isAsset then pictureUses files (isPrimary component e) e else (e.slot.map slotName).toList

lemma PictureContent.uses {primary : Bool} {content : Content}
    (h : PictureContent files e primary content) :
    UsesContent (pictureUses files primary e) content := by
  unfold pictureUses
  cases h with
  | @replaceable file alt hfile =>
    have hsource : Uses ["imageSrc", handle file] [.code]
        ("imageSrc || " ++ handle file ++ "\x7d" : Text).toList [] := by
      have hpieces : ("imageSrc || " ++ handle file ++ "\x7d" : Text) =
          "imageSrc" ++ " || " ++ (handle file ++ "\x7d") := append_assoc _ _ _
      rw [hpieces]
      exact uses_or isIdentifier_imageSrc.isName (uses_closed (isName_handle hfile))
    rw [hfile]
    exact .picture (uses_braced (Or.inl rfl) hsource) (usesValue_alt _)
  | supplied alt hfile =>
    rw [hfile]
    exact .pictureIf (uses_spaced isIdentifier_imageSrc.isName)
      (uses_bracedName (Or.inl rfl) isIdentifier_imageSrc.isName) (usesValue_alt _)
  | shown alt hfile =>
    rw [hfile]
    exact .picture (uses_bracedName (Or.inl rfl) (isName_handle hfile))
      (uses_quoted (unquoted_escapeMarkup _))
  | missing hfile =>
    rw [hfile]
    exact .box

lemma TemplateContent.uses {content : Content} (h : TemplateContent files component e content) :
    UsesContent (usesOf files component e) content := by
  unfold usesOf
  cases h with
  | picture hasset h =>
    rw [if_pos hasset]
    exact h.uses
  | @text slot hasset hslot =>
    rw [if_neg hasset, hslot]
    exact .span (uses_bracedName (Or.inr rfl) (isIdentifier_slotName slot).1.isName)
  | box hasset hslot =>
    rw [if_neg hasset, hslot]
    exact .box

/-- The tag of an element uses what is said of the element. -/
lemma usesTag_templateTag {tag : Tag} (hc : Unquoted (e.cssClass component.name))
    (h : templateTag files component e = .ok tag) : UsesTag (usesOf files component e) tag := by
  obtain ⟨hclass, hcontent⟩ := content_of_templateTag h
  refine ⟨?_, hcontent.uses⟩
  rwa [hclass]

/-! ### The whole markup -/

lemma toList_unlines_concat (lines : List Text) (last : Text) :
    (unlines (lines ++ [last])).toList = ended lines ++ last.toList := by
  induction lines with
  | nil => simp [unlines, Text.intercalate]
  | cons line rest ih =>
    have hne : rest ++ [last] ≠ [] := by simp
    obtain ⟨next, others, hrest⟩ := List.exists_cons_of_ne_nil hne
    have hsplit : (unlines (line :: rest ++ [last])).toList =
        line.toList ++ (.char '\n' :: (unlines (rest ++ [last])).toList) := by
      rw [List.cons_append, hrest]
      simp [unlines, Text.intercalate, List.intercalate_cons_cons]
    rw [hsplit, ih, ended_cons, List.append_assoc, List.cons_append]

/-- The outermost box uses the class and the further properties. -/
lemma uses_rootBox (hover : Over isSlugChar component.cssClass) :
    Uses ["className", "props"] [.code] (rootBox component).toList [.content, .code] := by
  have hopen : Uses [] [.code] ("    <div className=\x7b`" : Text).toList
      [.quasi, .code, .opening, .code] := .of_silent fun _ _ => rfl
  have hcss : Uses [] [.quasi] component.cssClass.toList [.quasi] := by
    refine .of_forall (by decide) fun c hc => ?_
    have hslug := hover c hc
    have hne {d : CodePoint} (hd : isSlugChar d = false) : c ≠ d := by
      rintro rfl
      rw [hslug] at hd
      cases hd
    simp only [Context.next, if_neg (hne (d := '`') (by decide)), if_neg (hne (d := '$') (by decide)),
      if_neg (hne (d := '\\') (by decide))]
  have hsubst : Uses ["className"] [.quasi, .code, .opening] (" $\x7bclassName\x7d" : Text).toList
      [.quasi, .code, .opening] := fun _ _ => rfl
  have htrim : Uses [] [.quasi, .code, .opening] ("`.trim()\x7d " : Text).toList [.opening] :=
    .of_silent fun _ _ => rfl
  have hrest : Uses ["props"] [.opening] ("\x7b...props\x7d" : Text).toList [.opening] :=
    fun _ _ => rfl
  have hclose : Uses [] [.opening] (">" : Text).toList [.content] := .of_silent fun _ _ => rfl
  have hpieces : (rootBox component).toList = ("    <div className=\x7b`" : Text).toList ++
      (component.cssClass.toList ++ ((" $\x7bclassName\x7d" : Text).toList ++
        (("`.trim()\x7d " : Text).toList ++ (("\x7b...props\x7d" : Text).toList ++
          (">" : Text).toList)))) := by
    simp only [rootBox, toList_append, List.append_assoc]
    rfl
  have htail := (hsubst.append (htrim.append (hrest.then_silent hclose))).inside [.code]
  rw [hpieces]
  exact hopen.append ((hcss.inside [.code, .opening, .code]).append htail)

/-! ### What is bound -/

/-- The files of a map are pictures' files, and their identifiers tell them apart. -/
structure PictureFiles (files : FileMap) : Prop where
  named : ∀ {key file}, files.file? key = some file → ∃ layer format, fileName layer format = .ok file
  apart : ∀ {key key' file file'}, files.file? key = some file → files.file? key' = some file' →
    handle file = handle file' → file = file'

/-- The properties of the first picture, if there is one. -/
def imageNames (component : Component) : List Text :=
  if component.hasAssets then ["imageSrc", "imageAlt"] else []

/-- The properties that are neither texts nor pictures' files. -/
def plainNames (component : Component) : List Text :=
  (["className"] : List Text) ++ imageNames component ++ (["props"] : List Text)

/-- The names of the text properties. -/
def slotNames (component : Component) : List Text :=
  (List.range' 1 component.texts.length).map slotName

/-- What the script of a component binds. -/
lemma bound_scriptOf (hps : properties component = .ok ps) :
    (scriptOf files component assetsImport ps markup).bound =
      (["React"] : List Text) ++ (shownFiles files component).map handle ++ [component.name] ++
        ((["className"] : List Text) ++ slotNames component ++ imageNames component) ++
        (["props"] : List Text) := by
  have himports : (scriptOf files component assetsImport ps markup).imports.map Prod.fst =
      (shownFiles files component).map handle := by
    simp only [scriptOf, List.map_map]
    rfl
  have hparameters : (scriptOf files component assetsImport ps markup).parameters.map Property.name =
      (["className"] : List Text) ++ slotNames component ++ imageNames component := by
    rw [slotNames, ← names_of_textProps]
    exact names_of_properties hps
  rw [Script.bound, himports, hparameters]
  rfl

lemma bound_perm (hps : properties component = .ok ps) :
    (scriptOf files component assetsImport ps markup).bound.Perm
      ((shownFiles files component).map handle ++ ((["React", component.name] : List Text) ++
        (slotNames component ++ plainNames component))) := by
  rw [bound_scriptOf hps, plainNames, List.perm_iff_count]
  intro name
  simp only [List.count_append, List.count_cons, List.count_nil]
  omega

lemma exists_of_mem_shownFiles {file : Text} (h : file ∈ shownFiles files component) :
    ∃ e ∈ component.assets, files.file? e.key = some file :=
  List.mem_filterMap.1 (mem_distinct.1 h)

/-- The plain properties begin with a small letter and have neither digits nor underscores. -/
structure IsPlain (name : Text) : Prop where
  identifier : IsIdentifier name
  small : ¬ BeginsLarge name
  letters : ∀ c ∈ name.toList, isNumeralChar c = false ∧ c ≠ '_'

instance : DecidablePred IsPlain := fun name =>
  decidable_of_iff (IsIdentifier name ∧ ¬ BeginsLarge name ∧
      ∀ c ∈ name.toList, isNumeralChar c = false ∧ c ≠ '_')
    ⟨fun h => ⟨h.1, h.2.1, h.2.2⟩, fun h => ⟨h.identifier, h.small, h.letters⟩⟩

lemma isPlain_of_mem : ∀ name ∈ plainNames component, IsPlain name := by
  unfold plainNames imageNames
  split <;> decide +kernel

lemma nodup_plainNames (component : Component) : (plainNames component).Nodup := by
  unfold plainNames imageNames
  split <;> decide +kernel

lemma isIdentifier_of_mem_bound (hname : IsFreshName (.initial .standard) component.name)
    (hfiles : PictureFiles files) (hps : properties component = .ok ps) :
    ∀ n ∈ (scriptOf files component assetsImport ps markup).bound, IsIdentifier n := by
  intro n hn
  rw [(bound_perm hps).mem_iff] at hn
  simp only [List.mem_append, List.mem_cons, List.not_mem_nil, or_false] at hn
  rcases hn with hn | (rfl | rfl) | hn | hn
  · obtain ⟨file, hfile, rfl⟩ := List.mem_map.1 hn
    obtain ⟨e, -, hfile⟩ := exists_of_mem_shownFiles hfile
    obtain ⟨layer, format, hlayer⟩ := hfiles.named hfile
    exact (isIdentifier_handle hlayer).1
  · decide +kernel
  · exact isIdentifier_of_large hname.word hname.large
  · obtain ⟨slot, -, rfl⟩ := List.mem_map.1 hn
    exact (isIdentifier_slotName slot).1
  · exact (isPlain_of_mem n hn).identifier

/-- The identifiers of a script are distinct: no kind of them looks like another. -/
theorem nodup_bound (hname : IsFreshName (.initial .standard) component.name)
    (hfiles : PictureFiles files) (hps : properties component = .ok ps) :
    (scriptOf files component assetsImport ps markup).bound.Nodup := by
  have hreact : component.name ≠ "React" := fun he =>
    hname.ne_reserved (by rw [he]; decide)
  have hword {n : Text} (hn : n ∈ (["React", component.name] : List Text)) :
      Over isWordChar n ∧ BeginsLarge n := by
    rcases List.mem_cons.1 hn with rfl | hn
    · exact ⟨over_ofString (by decide), by decide⟩
    · rw [List.mem_singleton.1 hn]
      exact ⟨hname.word, hname.large⟩
  have hslot {n : Text} (hn : n ∈ slotNames component) :
      Over isWordChar n ∧ ¬ BeginsLarge n ∧ ∃ c ∈ n.toList, isNumeralChar c = true := by
    obtain ⟨slot, -, rfl⟩ := List.mem_map.1 hn
    exact ⟨wordy_slotName slot, Bool.false_ne_true, (isIdentifier_slotName slot).2⟩
  rw [(bound_perm hps).nodup_iff]
  refine List.nodup_append.2 ⟨?_, List.nodup_append.2 ⟨?_, List.nodup_append.2
    ⟨?_, nodup_plainNames component, ?_⟩, ?_⟩, ?_⟩
  · refine List.Nodup.map_on (fun file hfile file' hfile' he => ?_) (nodup_distinct _)
    obtain ⟨e, -, hfile⟩ := exists_of_mem_shownFiles hfile
    obtain ⟨e', -, hfile'⟩ := exists_of_mem_shownFiles hfile'
    exact hfiles.apart hfile hfile' he
  · simpa using hreact.symm
  · exact (List.nodup_range' ..).map fun _ _ => slotName_inj
  · rintro n hn _ hn' rfl
    obtain ⟨-, -, c, hc, hdigit⟩ := hslot hn
    rw [((isPlain_of_mem n hn').letters c hc).1] at hdigit
    cases hdigit
  · rintro n hn _ hn' rfl
    have hlarge := (hword hn).2
    rcases List.mem_append.1 hn' with hn' | hn'
    · exact (hslot hn').2.1 hlarge
    · exact (isPlain_of_mem n hn').small hlarge
  · rintro n hn _ hn' rfl
    obtain ⟨file, hfile, rfl⟩ := List.mem_map.1 hn
    obtain ⟨e, -, hfile⟩ := exists_of_mem_shownFiles hfile
    obtain ⟨layer, format, hlayer⟩ := hfiles.named hfile
    have hscore := (isIdentifier_handle hlayer).2
    have hnotWord (hover : Over isWordChar (handle file)) : False :=
      absurd (hover _ hscore) (by decide)
    rcases List.mem_append.1 hn' with hn' | hn'
    · exact hnotWord (hword hn').1
    · rcases List.mem_append.1 hn' with hn' | hn'
      · exact hnotWord (hslot hn').1
      · exact ((isPlain_of_mem _ hn').letters _ hscore).2 rfl

/-! ### The script of a component -/

section

variable {roles roles' : RoleMemo} {root : LayerTree}

/-- The tags of a component use what is said of its elements. -/
lemma tagsUse_of_annotate
    (h : annotate .standard roles root component.name = .ok (component, roles'))
    (hword : Over isWordChar component.name) : ∀ e ∈ component.elements,
      TagsUse (templateTag files component) (usesOf files component) e := by
  obtain ⟨-, hover, -⟩ := classes_of_annotate h
  have hstands := (standInOrder_of_annotate h).1.standsFor
  intro e he
  have hclass : Over isSlugChar (e.cssClass component.name) :=
    over_append.2 ⟨over_append.2 ⟨over_lower hword, over_ofString (by decide)⟩,
      hover e.elementClass (List.mem_map_of_mem he)⟩
  refine ⟨fun a ha => usesTag_templateTag (unquoted_of_over hclass (by decide)) ha, fun hrole => ?_⟩
  have hslot : e.slot = none := by
    rw [← Option.not_isSome_iff_eq_none, (hstands e he).text, hrole]
    decide
  have hasset : e.isAsset = false := by
    rw [Element.isAsset, hrole]
    rfl
  simp [usesOf, hasset, hslot]

/-- The markup of a script uses the class, the further properties, and what the elements use, in
order. -/
theorem usedNames_scriptOf
    (h : annotate .standard roles root component.name = .ok (component, roles'))
    (hword : Over isWordChar component.name)
    (hmarkup : templateMarkup files component = .ok markup) :
    usedNames (unlines (scriptOf files component assetsImport ps markup).markup).toList =
      some ((["className", "props"] : List Text) ++
        component.elements.flatMap (usesOf files component)) := by
  obtain ⟨-, -, -, hnest⟩ := classes_of_annotate h
  have hforest := uses_markupForest 3 component.forest hnest (tagsUse_of_annotate h hword) hmarkup
  have hbody := ((uses_lineEnd (Or.inl rfl)).append hforest).inside [.code]
  have hpieces : (unlines (scriptOf files component assetsImport ps markup).markup).toList =
      (rootBox component).toList ++
        (([.char '\n'] ++ ended (forestLines scriptDialect 3 markup)) ++
          ("    </div>" : Text).toList) := by
    have hlines := toList_unlines_concat (rootBox component :: forestLines scriptDialect 3 markup)
      "    </div>"
    rw [ended_cons, List.append_assoc] at hlines
    exact hlines
  rw [hpieces]
  exact ((uses_rootBox (over_lower hword)).append (hbody.then_silent (.of_silent fun _ _ => rfl))).usedNames

/-- What an element may use is bound. -/
structure Provides (names : List Text) (files : FileMap) (e : Element) : Prop where
  file : e.isAsset = true → ∀ file, files.file? e.key = some file → handle file ∈ names
  image : e.isAsset = true → ("imageSrc" : Text) ∈ names ∧ ("imageAlt" : Text) ∈ names
  slot : ∀ slot, e.slot = some slot → slotName slot ∈ names

/-- Whatever an element of a component may use is bound. -/
lemma provides_of_annotate
    (h : annotate .standard roles root component.name = .ok (component, roles'))
    (hps : properties component = .ok ps) (he : e ∈ component.elements) :
    Provides (scriptOf files component assetsImport ps markup).bound files e := by
  have hasset (hpicture : e.isAsset = true) : e ∈ component.assets := List.mem_filter.2 ⟨he, hpicture⟩
  have hbound (n : Text) : n ∈ (scriptOf files component assetsImport ps markup).bound ↔
      n ∈ (shownFiles files component).map handle ∨ n ∈ (["React", component.name] : List Text) ∨
        n ∈ slotNames component ∨ n ∈ plainNames component := by
    rw [(bound_perm hps).mem_iff]
    simp only [List.mem_append]
  refine ⟨fun hpicture file hfile => ?_, fun hpicture => ?_, fun slot hslot => ?_⟩
  · have hshown : file ∈ shownFiles files component :=
      mem_distinct.2 (List.mem_filterMap.2 ⟨e, hasset hpicture, hfile⟩)
    exact (hbound _).2 (Or.inl (List.mem_map_of_mem hshown))
  · have himage : component.hasAssets = true := by
      simp [Component.hasAssets, List.ne_nil_of_mem (hasset hpicture)]
    have hplain : imageNames component ⊆ plainNames component := fun n hn =>
      List.mem_append_left _ (List.mem_append_right _ hn)
    have hnames : imageNames component = ["imageSrc", "imageAlt"] := if_pos himage
    rw [hnames] at hplain
    exact ⟨(hbound _).2 (Or.inr (Or.inr (Or.inr (hplain List.mem_cons_self)))),
      (hbound _).2 (Or.inr (Or.inr (Or.inr (hplain (List.mem_cons_of_mem _ List.mem_cons_self)))))⟩
  · have hnumber : slot ∈ slotsOf component.forest := List.mem_filterMap.2 ⟨e, he, hslot⟩
    rw [slots_of_annotate h] at hnumber
    exact (hbound _).2 (Or.inr (Or.inr (Or.inl (List.mem_map_of_mem hnumber))))

/-- What an element uses is bound where it may be used. -/
lemma mem_of_provides {n : Text} (h : Provides names files e) (hn : n ∈ usesOf files component e) :
    n ∈ names := by
  unfold usesOf at hn
  split at hn
  · rename_i hasset
    obtain ⟨hsrc, halt⟩ := h.image hasset
    have hfile := h.file hasset
    unfold pictureUses at hn
    split at hn
    · rename_i file _ heq
      simp only [List.mem_cons, List.not_mem_nil, or_false] at hn
      rcases hn with rfl | rfl | rfl
      · exact hsrc
      · exact hfile file heq
      · exact halt
    · simp only [List.mem_cons, List.not_mem_nil, or_false] at hn
      rcases hn with rfl | rfl | rfl
      · exact hsrc
      · exact hsrc
      · exact halt
    · rename_i file _ heq
      rw [List.mem_singleton.1 hn]
      exact hfile file heq
    · cases hn
  · cases hslot : e.slot with
    | none =>
      rw [hslot] at hn
      cases hn
    | some slot =>
      rw [hslot] at hn
      rw [List.mem_singleton.1 hn]
      exact h.slot slot hslot

/-- The script of a component binds distinct identifiers, and its markup uses no others. -/
theorem isScoped_scriptOf
    (h : annotate .standard roles root component.name = .ok (component, roles'))
    (hname : IsFreshName (.initial .standard) component.name) (hfiles : PictureFiles files)
    (hps : properties component = .ok ps) (hmarkup : templateMarkup files component = .ok markup) :
    (scriptOf files component assetsImport ps markup).IsScoped := by
  have hids : ∀ n ∈ (scriptOf files component assetsImport ps markup).bound, IsIdentifier n :=
    isIdentifier_of_mem_bound hname hfiles hps
  have hplain (n : Text) (hn : n ∈ plainNames component) :
      n ∈ (scriptOf files component assetsImport ps markup).bound := by
    rw [(bound_perm hps).mem_iff]
    exact List.mem_append_right _ (List.mem_append_right _ (List.mem_append_right _ hn))
  refine ⟨hids, nodup_bound hname hfiles hps, _, usedNames_scriptOf h hname.word hmarkup, ?_⟩
  refine List.forall_mem_append.2 ⟨?_, fun n hn => ?_⟩
  · simp only [List.forall_mem_cons]
    exact ⟨hplain _ (by simp [plainNames]), hplain _ (by simp [plainNames]), List.forall_mem_nil _⟩
  · obtain ⟨e, he, hn⟩ := List.mem_flatMap.1 hn
    exact mem_of_provides (provides_of_annotate h hps he) hn

end

end Handoff.Render
