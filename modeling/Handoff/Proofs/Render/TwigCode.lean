import Mathlib.Algebra.Order.BigOperators.Group.List
import Handoff.Proofs.Component.Elements
import Handoff.Proofs.Render.Agreement
import Handoff.Proofs.Render.Code

/-!
The code in a twig file.

The renderer puts code into a few places. Descriptions of pictures are escaped for markup, which leaves
the marks of code as they are; so a description adds the code that it contains, and nothing else does.
-/

namespace Handoff.Render

open Asset Design Naming Text

variable {codes more : List Text}

/-! ### The code of an element -/

/-- The class print. -/
def classCode : Text := printed "base_class"

/-- The field print of a text element. -/
def fieldCode (slot : Nat) : Text := printed ("content.field_" ++ slotName slot)

/-- The print of a picture's address. -/
def pictureCode (file : Text) : Text :=
  printed ("file_url('" ++ twigAssetsPath ++ "/" ++ file ++ "')")

/-- The code in the tag of an element, with some code in between if it is a picture with a file. -/
def elementCode (files : FileMap) (told : List Text) (e : Element) : List Text :=
  if e.isAsset then
    match files.file? e.key with
    | some file => pictureCode file :: (told ++ [classCode])
    | none => [classCode]
  else classCode :: e.slot.toList.map fieldCode

/-- The code in what describes an element, as it stands in markup. -/
def toldCode (e : Element) : List Text :=
  match description e with
  | .ok alt => (codeStarts (escapeMarkup alt).toList).map ofList
  | .error _ => []

variable {files : FileMap} {e : Element} {tag : Tag}

lemma elementCode_picture (told : List Text) {file : Text} (hasset : e.isAsset = true)
    (hfile : files.file? e.key = some file) :
    elementCode files told e = pictureCode file :: (told ++ [classCode]) := by
  rw [elementCode, if_pos hasset, hfile]

lemma elementCode_no_picture (told : List Text) (hasset : e.isAsset = true)
    (hfile : files.file? e.key = none) : elementCode files told e = [classCode] := by
  rw [elementCode, if_pos hasset, hfile]

lemma elementCode_no_asset (told : List Text) (hasset : ¬ e.isAsset = true) :
    elementCode files told e = classCode :: e.slot.toList.map fieldCode := by
  rw [elementCode, if_neg hasset]

lemma hasCode_self (text : Text) : HasCode ((codeStarts text.toList).map ofList) text :=
  List.forall₂_map_left_iff.2 (List.forall₂_same.2 fun _ _ => List.prefix_refl _)

lemma stretch_classCode : Stretch [classCode] classCode := .printed (by decide)

lemma stretch_classOf (h : Over isSlugChar e.elementClass) :
    Stretch [classCode] (plainDialect.classOf (twigClass e)) := by
  have hname : Stretch [] (plainDialect.classAttribute ++ "=") := .of_no_brace (by decide)
  have htail : Stretch [] ("__" ++ e.elementClass) := by
    refine .of_no_brace fun c hc => ?_
    rintro rfl
    have hover : Over isSlugChar ("__" ++ e.elementClass) :=
      over_append.2 ⟨over_ofString (by decide), h⟩
    exact absurd (hover _ hc) (by decide)
  have hvalue : HasCode [classCode] (twigClass e) := by
    rw [twigClass, append_assoc]
    exact (stretch_classCode.append htail).code
  exact hname.append (.quoted hvalue)

lemma stretch_pictureCode (hfiles : AreFileNames files) {file : Text}
    (hfile : files.file? e.key = some file) : Stretch [pictureCode file] (pictureCode file) := by
  obtain ⟨layer, format, hname⟩ := hfiles e.key file (Files.lookup_of_file hfile)
  obtain ⟨stem, hstem, -⟩ := Files.isFileName_of_fileName hname
  refine .printed ?_
  rw [hstem.eq]
  simp only [toList_append, List.forall_mem_append]
  refine ⟨⟨⟨by decide, by decide⟩, fun c hc => ?_, by cases format <;> decide⟩, by decide⟩
  rintro rfl
  exact absurd (hstem.stem_over _ hc) (by decide)

lemma stretch_fieldCode (slot : Nat) : Stretch [fieldCode slot] (fieldCode slot) := by
  refine .printed ?_
  rw [toList_append, List.forall_mem_append]
  refine ⟨by decide, fun c hc => ?_⟩
  rintro rfl
  exact absurd (over_slotName slot _ hc) (by decide)

/-- The tag of an element opens with its class print. -/
lemma stretch_openBox (hclass : Over isSlugChar e.elementClass)
    (h : twigTag files twigAssetsPath e = .ok tag) :
    Stretch [classCode] (plainDialect.openBox tag.cssClass) := by
  obtain ⟨hcls, -⟩ := content_of_twigTag h
  have hopen : Stretch [] "<div " := .of_no_brace (by decide)
  have hclose : Stretch [] ">" := .of_no_brace (by decide)
  rw [hcls]
  exact (hopen.append (stretch_classOf hclass)).append hclose

/-- The lines of a tag without children have the code of its element. -/
lemma linesHave_leafLines (hfiles : AreFileNames files) (hclass : Over isSlugChar e.elementClass)
    (h : twigTag files twigAssetsPath e = .ok tag) :
    LinesHave (elementCode files (toldCode e) e) (plainDialect.leafLines tag) := by
  have hopen := stretch_openBox hclass h
  have hbox : Stretch [classCode] (plainDialect.emptyBox tag.cssClass) :=
    hopen.append (.of_no_brace (by decide))
  have hcls := stretch_classOf hclass
  unfold twigTag at h
  dsimp only at h
  split at h <;> rename_i hasset
  · split at h <;> rename_i hfile
    · rename_i file
      obtain ⟨alt, halt, h⟩ := bind_eq_ok.1 h
      cases h
      have hlead : Stretch [] "<img src=" := .of_no_brace (by decide)
      have hmiddle : Stretch [] " alt=" := .of_no_brace (by decide)
      have hblank : Stretch [] " " := .of_no_brace (by decide)
      have hend : Stretch [] " />" := .of_no_brace (by decide)
      have hsource := Stretch.quoted (stretch_pictureCode hfiles hfile).code
      have htold : Stretch (toldCode e) (quoted (escapeMarkup alt)) := by
        rw [toldCode, halt]
        exact .quoted (hasCode_self _)
      have hline := (((((hlead.append hsource).append hmiddle).append htold).append hblank).append
        hcls).append hend
      simp only [List.nil_append, List.append_nil, List.cons_append] at hline
      rw [elementCode_picture _ hasset hfile]
      exact .single hline
    · cases h
      rw [elementCode_no_picture _ hasset hfile]
      exact .single hbox
  · rw [elementCode_no_asset _ hasset]
    split at h <;> rename_i hslot <;> cases h <;> rw [hslot]
    · rename_i slot
      have hlead : Stretch [] "<span " := .of_no_brace (by decide)
      have hmiddle : Stretch [] ">" := .of_no_brace (by decide)
      have hend : Stretch [] "</span>" := .of_no_brace (by decide)
      exact .single ((((hlead.append hcls).append hmiddle).append (stretch_fieldCode slot)).append
        hend)
    · exact .single hbox

/-! ### The code of a component -/

/-- An element whose class and field the twig file can print. -/
structure Printable (e : Element) : Prop where
  cls : Over isSlugChar e.elementClass
  text : e.slot.isSome = true ↔ e.role = .text

/-- A container shows its class and nothing else. -/
lemma elementCode_container (h : Printable e) (hrole : e.role = .container) (told : List Text) :
    elementCode files told e = [classCode] := by
  have hasset : ¬ e.isAsset = true := by
    rw [Element.isAsset, hrole]
    decide
  have hslot : e.slot = none := by
    rw [← Option.not_isSome_iff_eq_none, h.text, hrole]
    decide
  rw [elementCode_no_asset told hasset, hslot]
  rfl

mutual

/-- The lines of a tree of elements have the code of each element, in preorder. -/
theorem linesHave_markupTree (t : Tree Element) {markup : Tree Tag} (hfiles : AreFileNames files)
    (hnest : OnlyContainersNest [t]) (hprint : ∀ e ∈ t.preorder, Printable e)
    (h : markupTree (twigTag files twigAssetsPath) t = .ok markup) (depth : Nat) :
    LinesHave (t.preorder.flatMap fun e => elementCode files (toldCode e) e)
      (treeLines plainDialect depth markup) := by
  match t with
  | .node e below =>
    obtain ⟨hcontainer, hbelow, -⟩ := onlyContainersNest_cons.1 hnest
    rw [Tree.preorder_node, List.forall_mem_cons] at hprint
    rw [markupTree] at h
    obtain ⟨top, htop, h⟩ := bind_eq_ok.1 h
    have hleaf := (linesHave_leafLines hfiles hprint.1.cls htop).indented depth
    rw [Tree.preorder_node, List.flatMap_cons]
    split at h
    · rename_i hrole
      obtain ⟨inside, hinside, h⟩ := bind_eq_ok.1 h
      cases h
      have hrest := linesHave_markupForest below hfiles hbelow hprint.2 hinside (depth + 1)
      cases inside with
      | nil =>
        rw [forestLines] at hrest
        rw [hrest.eq_nil, List.append_nil, treeLines]
        exact hleaf
      | cons first others =>
        have hopen := (stretch_openBox hprint.1.cls htop).indented depth
        have hclose : Stretch [] (indented depth "</div>") :=
          Stretch.indented (.of_no_brace (by decide)) depth
        have hlines := (LinesHave.cons hopen hrest).append (.single hclose)
        rw [List.append_nil, forestLines] at hlines
        rw [elementCode_container hprint.1 hrole, treeLines]
        exact hlines
    · rename_i hrole
      cases h
      have hempty : below = [] := by
        by_contra hne
        exact hrole (hcontainer hne)
      rw [hempty, Tree.preorderAll_nil, List.flatMap_nil, List.append_nil, treeLines]
      exact hleaf

/-- The lines of elements side by side have the code of each element, in preorder. -/
theorem linesHave_markupForest (ts : Forest Element) {markup : Markup} (hfiles : AreFileNames files)
    (hnest : OnlyContainersNest ts) (hprint : ∀ e ∈ Tree.preorderAll ts, Printable e)
    (h : markupForest (twigTag files twigAssetsPath) ts = .ok markup) (depth : Nat) :
    LinesHave ((Tree.preorderAll ts).flatMap fun e => elementCode files (toldCode e) e)
      (forestLines plainDialect depth markup) := by
  match ts with
  | [] =>
    rw [markupForest] at h
    cases h
    rw [Tree.preorderAll_nil, forestLines]
    exact .nil
  | .node e below :: ts =>
    obtain ⟨hcontainer, hbelow, hrest⟩ := onlyContainersNest_cons.1 hnest
    have hfirst : OnlyContainersNest [.node e below] :=
      onlyContainersNest_cons.2 ⟨hcontainer, hbelow, onlyContainersNest_nil⟩
    rw [Tree.preorderAll_cons, List.forall_mem_append] at hprint
    rw [markupForest] at h
    obtain ⟨first, htree, h⟩ := bind_eq_ok.1 h
    obtain ⟨rest, hforest, h⟩ := bind_eq_ok.1 h
    cases h
    rw [Tree.preorderAll_cons, List.flatMap_append, forestLines]
    exact (linesHave_markupTree (.node e below) hfiles hfirst hprint.1 htree depth).append
      (linesHave_markupForest ts hfiles hrest hprint.2 hforest depth)

end

/-! ### The code of a twig file -/

/-- The code in front of the elements: the library, the base class and the class print of the outermost
box. -/
def headCode (base : Text) : List Text :=
  [printed ("attach_library('frontend/" ++ base ++ "')"),
    "\x7b% set base_class = '" ++ base ++ "' %\x7d", classCode]

/-- The code that the renderer puts into a twig file. -/
def ownCode (files : FileMap) (component : Component) : List Text :=
  headCode component.cssClass ++ component.elements.flatMap (elementCode files [])

/-- The same with the code in the descriptions of pictures. -/
def wholeCode (files : FileMap) (component : Component) : List Text :=
  headCode component.cssClass ++
    component.elements.flatMap fun e => elementCode files (toldCode e) e

/-- No picture that is shown has a description with code in it. -/
def TellsNoCode (files : FileMap) (component : Component) : Prop :=
  ∀ e ∈ component.elements, ∀ file alt, e.isAsset = true → files.file? e.key = some file →
    description e = .ok alt → codeStarts alt.toList = []

section

variable {component : Component} {text : Text}

lemma linesHave_head {base : Text} (h : Over isSlugChar base) :
    LinesHave (headCode base) [printed ("attach_library('frontend/" ++ base ++ "')"), "",
      "\x7b% set base_class = '" ++ base ++ "' %\x7d", "",
      "<div class=\"" ++ printed "base_class" ++ "\">"] := by
  have hbase : ∀ c ∈ base.toList, c ≠ '\x7b' := by
    rintro c hc rfl
    exact absurd (h _ hc) (by decide)
  have hlibrary : Stretch [printed ("attach_library('frontend/" ++ base ++ "')")]
      (printed ("attach_library('frontend/" ++ base ++ "')")) := by
    refine .printed ?_
    simp only [toList_append, List.forall_mem_append]
    exact ⟨⟨by decide, hbase⟩, by decide⟩
  have hset : Stretch ["\x7b% set base_class = '" ++ base ++ "' %\x7d"]
      ("\x7b% set base_class = '" ++ base ++ "' %\x7d") := by
    have hlist : ("\x7b% set base_class = '" ++ base ++ "' %\x7d" : Text).toList = .char '\x7b' ::
        .char '%' :: (" set base_class = '" ++ base ++ "' %\x7d" : Text).toList := rfl
    refine .opened hlist (by decide) rfl ?_ (List.cons_ne_nil _ _)
    simp only [toList_append, List.forall_mem_append]
    exact ⟨⟨by decide, hbase⟩, by decide⟩
  have hempty : Stretch [] "" := .of_no_brace nofun
  have hlead : Stretch [] "<div class=\"" := .of_no_brace (by decide)
  have hend : Stretch [] "\">" := .of_no_brace (by decide)
  exact .cons hlibrary (.cons hempty (.cons hset (.cons hempty
    (.single ((hlead.append stretch_classCode).append hend)))))

/-- The code of a twig file is that of the renderer and that of the descriptions. -/
theorem hasCode_twig (hfiles : AreFileNames files) (hbase : Over isSlugChar component.cssClass)
    (hnest : OnlyContainersNest component.forest) (hprint : ∀ e ∈ component.elements, Printable e)
    (h : twig files twigAssetsPath component = .ok text) : HasCode (wholeCode files component) text := by
  obtain ⟨markup, hmarkup, h⟩ := bind_eq_ok.1 h
  cases h
  have hbody := linesHave_markupForest component.forest hfiles hnest hprint hmarkup 1
  have hclose : LinesHave [] ["</div>", ""] :=
    .cons (.of_no_brace (by decide)) (.single (.of_no_brace nofun))
  have hall := ((linesHave_head hbase).append hbody).append hclose
  rw [List.append_nil] at hall
  exact hall.unlines.code

/-- Two accounts of the code of one text have as many entries. -/
lemma HasCode.length_eq {codes more : List Text} (h : HasCode codes text) (h' : HasCode more text) :
    codes.length = more.length :=
  (List.Forall₂.length_eq h).trans (List.Forall₂.length_eq h').symm

lemma length_elementCode (told : List Text) (e : Element) :
    (elementCode files told e).length = (elementCode files [] e).length +
      if e.isAsset ∧ (files.file? e.key).isSome then told.length else 0 := by
  unfold elementCode
  split <;> rename_i hasset
  · split <;> rename_i hfile
    · simp [hasset, hfile, Nat.add_comm, Nat.add_left_comm]
    · simp [hasset, hfile]
  · simp [hasset]

lemma toldCode_eq_nil {alt : Text} (h : description e = .ok alt) :
    toldCode e = [] ↔ codeStarts alt.toList = [] := by
  rw [toldCode, h]
  simp [escapeMarkup, codeStarts_escapeMarkup]

/-- Lists that are no longer than others in the same places, and as long all together, are as long in
each place. -/
lemma length_eq_of_flatMap {f g : Element → List Text} {es : List Element}
    (hle : ∀ e ∈ es, (f e).length ≤ (g e).length)
    (h : (es.flatMap f).length = (es.flatMap g).length) :
    ∀ e ∈ es, (f e).length = (g e).length := by
  have hsum (es : List Element) (hle : ∀ e ∈ es, (f e).length ≤ (g e).length) :
      (es.flatMap f).length ≤ (es.flatMap g).length := by
    rw [List.length_flatMap, List.length_flatMap]
    exact List.sum_le_sum hle
  induction es with
  | nil => exact List.forall_mem_nil _
  | cons e rest ih =>
    rw [List.forall_mem_cons] at hle ⊢
    rw [List.flatMap_cons, List.flatMap_cons, List.length_append, List.length_append] at h
    have hrest := hsum rest hle.2
    exact ⟨by omega, ih hle.2 (by omega)⟩

/-- The renderer's code is all there is exactly when no description has any. -/
lemma hasCode_ownCode_iff (h : HasCode (wholeCode files component) text) :
    HasCode (ownCode files component) text ↔ TellsNoCode files component := by
  constructor
  · intro hown e he file alt hasset hfile halt
    have hlength := hown.length_eq h
    rw [ownCode, wholeCode, List.length_append, List.length_append] at hlength
    have heach := length_eq_of_flatMap (f := elementCode files [])
      (g := fun e => elementCode files (toldCode e) e)
      (fun e _ => by rw [length_elementCode (toldCode e)]; omega) (by omega) e he
    rw [length_elementCode (toldCode e), if_pos ⟨hasset, by rw [hfile]; rfl⟩] at heach
    exact (toldCode_eq_nil halt).1 (List.eq_nil_of_length_eq_zero (by omega))
  · intro hnone
    have heach : ∀ e ∈ component.elements,
        elementCode files [] e = elementCode files (toldCode e) e := by
      intro e he
      unfold elementCode
      split <;> rename_i hasset
      · split <;> rename_i hfile
        · have htold : toldCode e = [] := by
            cases halt : description e with
            | error fault => rw [toldCode, halt]
            | ok alt => exact (toldCode_eq_nil halt).2 (hnone e he _ alt hasset hfile halt)
          rw [htold]
        · rfl
      · rfl
    rwa [ownCode, List.flatMap_congr heach]

end

/-- The twig file of a component with typed layers is rendered, whatever roles were decided before. Code
begins in it where the renderer puts it and where a description of a picture has it, so the renderer's
code is all there is exactly when no picture that is shown has a description with code in it. -/
theorem twig_code {names names' : ComponentNames} {label : Value} {name : Text}
    (hname : names.resolve .standard label = .ok (name, names')) {files : FileMap}
    (hfiles : AreFileNames files) (roles : RoleMemo) (root : LayerTree) :
    (WellTypedTree root → ∃ component roles' text,
      annotate .standard roles root name = .ok (component, roles') ∧
        twig files twigAssetsPath component = .ok text) ∧
    ∀ component roles' text, annotate .standard roles root name = .ok (component, roles') →
      twig files twigAssetsPath component = .ok text →
      HasCode (wholeCode files component) text ∧
        (HasCode (ownCode files component) text ↔ TellsNoCode files component) := by
  constructor
  · intro hroot
    obtain ⟨component, roles', hcomponent, htyped⟩ := exists_annotate_eq_ok roles hroot name
    obtain ⟨text, htwig⟩ := twig_eq_ok htyped twigAssetsPath
    exact ⟨component, roles', text, hcomponent, htwig⟩
  · intro component roles' text hcomponent htwig
    obtain ⟨rfl, hslugs, -, hnest⟩ := classes_of_annotate hcomponent
    obtain ⟨hword, -, -, -⟩ := ComponentNames.resolve_eq_ok hname
    have hprint : ∀ e ∈ component.elements, Printable e := fun e he =>
      ⟨hslugs e.elementClass (List.mem_map_of_mem he),
        ((standInOrder_of_annotate hcomponent).1.standsFor e he).text⟩
    have hwhole := hasCode_twig hfiles (over_lower hword) hnest hprint htwig
    exact ⟨hwhole, hasCode_ownCode_iff hwhole⟩

/-- The code in the twig file of a card, whose second star has no file. -/
def cardCode : List Text :=
  ["\x7b\x7b attach_library('frontend/card') \x7d\x7d", "\x7b% set base_class = 'card' %\x7d",
    "\x7b\x7b base_class \x7d\x7d", "\x7b\x7b base_class \x7d\x7d",
    "\x7b\x7b content.field_text1 \x7d\x7d", "\x7b\x7b base_class \x7d\x7d",
    "\x7b\x7b file_url('assets/figma/star-1-4.svg') \x7d\x7d", "\x7b\x7b base_class \x7d\x7d",
    "\x7b\x7b base_class \x7d\x7d"]

theorem twig_code_card : ∃ component roles' text,
    annotate .standard [] card "Card" = .ok (component, roles') ∧
    twig cardFiles twigAssetsPath component = .ok text ∧ HasCode cardCode text := by
  have hname : (ComponentNames.initial .standard).resolve .standard (.text "Card") =
      .ok ("Card", ⟨(ComponentNames.initial .standard).used.insert (lower "Card")⟩) := rfl
  obtain ⟨hrender, hcode⟩ := twig_code hname areFileNames_cardFiles [] card
  obtain ⟨component, roles', text, hcomponent, htwig⟩ := hrender wellTypedTree_card
  obtain ⟨hwhole, -⟩ := hcode component roles' text hcomponent htwig
  have hlist : ((annotate .standard [] card "Card").map fun annotated =>
      wholeCode cardFiles annotated.1).toOption = some cardCode := by
    decide +kernel
  rw [hcomponent] at hlist
  refine ⟨component, roles', text, hcomponent, htwig, ?_⟩
  rw [← Option.some.inj hlist]
  exact hwhole

/-- A card with a star whose name is a print. -/
def tellingCard : LayerTree :=
  .node (plainLayer "1:1" "Card" "COMPONENT") [
    .node (plainLayer "1:2" "\x7b\x7bsecret\x7d\x7d" "STAR") []]

/-- The star has a file. -/
def tellingFiles : FileMap := [(.text "1:2", some "secret-1-2.svg")]

/-- The name of the star is code in the twig file, though no code of the renderer. -/
theorem twig_code_telling : AreFileNames tellingFiles ∧ ∃ component roles' text,
    annotate .standard [] tellingCard "Card" = .ok (component, roles') ∧
    twig tellingFiles twigAssetsPath component = .ok text ∧
    ¬ HasCode (ownCode tellingFiles component) text ∧
    ∃ start ∈ codeStarts text.toList, ("\x7b\x7bsecret\x7d\x7d" : Text).toList <+: start := by
  refine ⟨fun key file h => ?_, ?_⟩
  · obtain ⟨before, after, hsplit, -⟩ := List.lookup_eq_some_iff.1 h
    have hmem : (key, some file) ∈ tellingFiles := by simp [hsplit]
    cases List.mem_singleton.1 hmem
    exact ⟨plainLayer "1:2" "\x7b\x7bsecret\x7d\x7d" "STAR", .svg, rfl⟩
  · have hrun : ((annotate .standard [] tellingCard "Card").bind fun annotated =>
        (twig tellingFiles twigAssetsPath annotated.1).map fun text =>
          ((ownCode tellingFiles annotated.1).length, (codeStarts text.toList).length,
            (codeStarts text.toList).any (("\x7b\x7bsecret\x7d\x7d" : Text).toList.isPrefixOf ·))
        ).toOption = some (5, 6, true) := by
      decide +kernel
    rcases hcomponent : annotate .standard [] tellingCard "Card" with fault | ⟨component, roles'⟩ <;>
      rw [hcomponent] at hrun
    · cases hrun
    change ((twig tellingFiles twigAssetsPath component).map _).toOption = _ at hrun
    rcases htwig : twig tellingFiles twigAssetsPath component with fault | text <;>
      rw [htwig] at hrun
    · cases hrun
    obtain ⟨hown, hrest⟩ := Prod.mk.inj (Option.some.inj hrun)
    obtain ⟨hstarts, hany⟩ := Prod.mk.inj hrest
    refine ⟨component, roles', text, rfl, htwig, fun hcode => ?_, ?_⟩
    · have hlength := List.Forall₂.length_eq hcode
      exact absurd (hown.symm.trans (hlength.trans hstarts)) (by decide)
    · obtain ⟨start, hstart, hprefix⟩ := List.any_eq_true.1 hany
      exact ⟨start, hstart, List.isPrefixOf_iff_prefix.1 hprefix⟩

end Handoff.Render
