import Mathlib.Data.List.TakeWhile
import Handoff.Proofs.Component.Storing
import Handoff.Proofs.Render.Agreement
import Handoff.Proofs.Sync.Writing

/-!
The classes that a run gives out.

The class of a component has no underscore, so what stands before the first underscore of a class
says which component it belongs to. Two components never share a class, whatever their elements are
called.
-/

namespace Handoff

open Action Asset Config Design Files Naming Render Render.Reader Text

/-! ### The form of a class -/

/-- The small letters of ASCII. -/
def isSmallLetter (c : CodePoint) : Bool := 'a' ≤ c && c ≤ 'z'

/-- What the class of a component consists of. -/
def isBaseChar (c : CodePoint) : Bool := isSmallLetter c || isNumeralChar c

/-- The class of a component: a small letter, then small letters and digits. -/
def IsBaseClass (text : Text) : Prop :=
  ∃ first rest, text.toList = first :: rest ∧ isSmallLetter first = true ∧
    ∀ c ∈ rest, isBaseChar c = true

/-- The class of a component, or that of an element: two underscores and a nonempty slug behind the
class of the component. -/
def IsClass (text : Text) : Prop :=
  IsBaseClass text ∨
    ∃ base slug, IsBaseClass base ∧ Over isSlugChar slug ∧ slug ≠ "" ∧ text = base ++ "__" ++ slug

/-- What stands before the first underscore. -/
def baseOf (text : Text) : Text := ofList (text.toList.takeWhile fun c => c ≠ '_')

lemma isBaseChar_small {c : CodePoint} (h : isWordChar c = true) : isBaseChar (small c) = true :=
  word_induction (P := fun c => isBaseChar (small c) = true) (by decide +kernel) h

lemma isSmallLetter_small {c : CodePoint} (h : isCapital c = true) :
    isSmallLetter (small c) = true :=
  word_induction (P := fun c => isCapital c = true → isSmallLetter (small c) = true)
    (by decide +kernel) (isWordChar_of_capital h) h

/-- The lower case of a word with a capital in front is the class of a component. -/
lemma isBaseClass_componentClass {name : Text} (hword : Over isWordChar name)
    (hlarge : BeginsLarge name) : IsBaseClass (componentClass name) := by
  obtain ⟨first, rest, hname, hcapital⟩ := beginsLarge_iff.1 hlarge
  refine ⟨small first, rest.map small, ?_, isSmallLetter_small hcapital, ?_⟩
  · rw [componentClass, toList_lower_of_ascii hword.ascii, hname, List.map_cons]
  · intro c hc
    obtain ⟨d, hd, rfl⟩ := List.mem_map.1 hc
    exact isBaseChar_small (hword d (by rw [hname]; exact List.mem_cons_of_mem _ hd))

section

variable {base tail : Text}

lemma IsBaseClass.no_underscore (h : IsBaseClass base) :
    ∀ c ∈ base.toList, decide (c ≠ '_') = true := by
  obtain ⟨first, rest, hbase, hfirst, hrest⟩ := h
  have hall : ∀ c ∈ base.toList, isBaseChar c = true := by
    rw [hbase, List.forall_mem_cons]
    exact ⟨by rw [isBaseChar, hfirst, Bool.true_or], hrest⟩
  intro c hc
  have hchar := hall c hc
  refine decide_eq_true ?_
  rintro rfl
  exact absurd hchar (by decide)

lemma baseOf_base (h : IsBaseClass base) : baseOf base = base :=
  ext_toList (List.takeWhile_eq_self_iff.2 h.no_underscore)

lemma baseOf_append (h : IsBaseClass base) (tail : Text) : baseOf (base ++ "__" ++ tail) = base := by
  refine ext_toList ?_
  rw [baseOf, toList_append, toList_append, List.append_assoc,
    List.takeWhile_append_of_pos h.no_underscore]
  exact List.append_nil _

end

/-! ### The classes of components -/

/-- The class of a component and those of its elements. -/
def Component.classes (component : Component) : List Text :=
  component.cssClass :: component.elements.map (Element.cssClass component.name)

/-- Classes of components: each has the form of a class, and no two are the same. -/
structure ClassesApart (components : List Component) : Prop where
  base : ∀ component ∈ components, IsBaseClass component.cssClass
  form : ∀ cls ∈ components.flatMap Component.classes, IsClass cls
  nodup : (components.flatMap Component.classes).Nodup
  /-- Two components have no class in common. -/
  disjoint : components.Pairwise fun a b => a.classes.Disjoint b.classes

section

variable {component : Component}

/-- The classes of one component are distinct. -/
lemma nodup_classes (h : (classesOf component.forest).Nodup) : component.classes.Nodup := by
  have helements : component.elements.Pairwise fun a b => a.elementClass ≠ b.elementClass :=
    List.pairwise_map.1 h
  refine List.nodup_cons.2 ⟨fun hmem => ?_, List.pairwise_map.2 (helements.imp fun hne he => ?_)⟩
  · obtain ⟨e, -, he⟩ := List.mem_map.1 hmem
    have hlength := congrArg (fun text => text.toList.length) he
    simp only [Element.cssClass, Component.cssClass, toList_append, List.length_append,
      toList_ofString, List.length_map] at hlength
    have htwo : "__".toList.length = 2 := rfl
    omega
  · exact hne (append_left_cancel he)

/-- Each class of a component begins with that of the component. -/
lemma baseOf_of_mem_classes (h : IsBaseClass component.cssClass) {cls : Text}
    (hcls : cls ∈ component.classes) : baseOf cls = component.cssClass := by
  rcases List.mem_cons.1 hcls with rfl | helement
  · exact baseOf_base h
  · obtain ⟨e, -, rfl⟩ := List.mem_map.1 helement
    exact baseOf_append h e.elementClass

lemma isClass_of_mem_classes (h : IsBaseClass component.cssClass)
    (hslugs : ∀ c ∈ classesOf component.forest, Over isSlugChar c ∧ c ≠ "") :
    ∀ cls ∈ component.classes, IsClass cls := by
  refine List.forall_mem_cons.2 ⟨Or.inl h, fun cls hcls => ?_⟩
  obtain ⟨e, he, rfl⟩ := List.mem_map.1 hcls
  obtain ⟨hover, hne⟩ := hslugs e.elementClass (List.mem_map_of_mem he)
  exact Or.inr ⟨component.cssClass, e.elementClass, h, hover, hne, rfl⟩

end

/-- The classes of components that were named and annotated in order are apart. -/
theorem classesApart_of_annotateAll {names : ComponentNames} {roles : RoleMemo}
    {trees : List LayerTree} {components : List Component}
    (h : annotateAll names roles trees = .ok components) : ClassesApart components := by
  obtain ⟨hfresh, hnames⟩ := names_of_annotateAll h
  have hbase (component : Component) (hc : component ∈ components) :
      IsBaseClass component.cssClass :=
    isBaseClass_componentClass (hfresh component hc).word (hfresh component hc).large
  have hdisjoint : components.Pairwise fun a b => a.classes.Disjoint b.classes :=
    hnames.imp_of_mem fun {a b} ha hb hne cls hcls hcls' => hne <|
      (baseOf_of_mem_classes (hbase a ha) hcls).symm.trans (baseOf_of_mem_classes (hbase b hb) hcls')
  refine ⟨hbase, fun cls hcls => ?_, List.nodup_flatMap.2 ⟨fun component hc => ?_, hdisjoint⟩,
    hdisjoint⟩
  · obtain ⟨component, hc, hcls⟩ := List.mem_flatMap.1 hcls
    obtain ⟨tree, -, before, after, hannotate⟩ := exists_annotate_of_mem h component hc
    obtain ⟨-, hslugs, -, -⟩ := classes_of_annotate hannotate
    exact isClass_of_mem_classes (hbase component hc)
      (fun c hc => ⟨hslugs c hc, classes_ne_empty_of_annotate hannotate c hc⟩) cls hcls
  · obtain ⟨tree, -, before, after, hannotate⟩ := exists_annotate_of_mem h component hc
    obtain ⟨-, -, hnodup, -⟩ := classes_of_annotate hannotate
    exact nodup_classes hnodup

/-! ### The files that show them -/

/-- The files of a component speak of its classes, all of them and no others. -/
structure SpeaksOf (files : FileMap) (assetsImport : Text) (component : Component)
    (artifacts : ArtifactSet) : Prop where
  /-- The rules of the style sheet, the nested ones written out. -/
  selected : ∃ rules, IsSheet component rules artifacts.stylesheet ∧
    classSelector component.cssClass :: rules.map (fun rule =>
      expandedSelector (classSelector component.cssClass) rule.selector) =
        component.classes.map classSelector
  /-- The outermost box of the template and the markup inside it. -/
  shown : ∃ shown, IsTemplate files component assetsImport shown artifacts.template ∧
    component.cssClass :: Tree.preorderAll shown = component.classes
  /-- The same of the twig file, with the base class put in. -/
  served : AreFileNames files → ∀ twig ∈ artifacts.twig, ∃ served, IsTwig component served twig ∧
    component.cssClass :: (Tree.preorderAll served).map (withBase component.cssClass) =
      component.classes

section

variable {settings : Settings} {here : Location} {files : FileMap} {withTwig : Bool}

/-- What is rendered for an annotated component speaks of its classes. -/
theorem speaksOf_of_buildArtifacts {before after : RoleMemo} {tree : LayerTree}
    {component : Component} {artifacts : ArtifactSet} (hword : Over isWordChar component.name)
    (hannotate : annotate .standard before tree component.name = .ok (component, after))
    (h : buildArtifacts settings here files withTwig component = .ok artifacts) :
    SpeaksOf files (assetsImport settings here component.name) component artifacts := by
  obtain ⟨-, hslugs, -, hnest⟩ := classes_of_annotate hannotate
  obtain ⟨-, htemplate, hsheet, htwig⟩ := rendered_of_buildArtifacts h
  have helement : ∀ e ∈ component.elements, Over isSlugChar e.elementClass := fun e he =>
    hslugs e.elementClass (List.mem_map_of_mem he)
  have hclass : ∀ e ∈ component.elements, Unquoted (e.cssClass component.name) := by
    intro e he
    have hcss : Over isSlugChar (e.cssClass component.name) :=
      over_append.2 ⟨over_append.2 ⟨over_lower hword, over_ofString (by decide)⟩, helement e he⟩
    exact unquoted_of_over hcss (by decide)
  refine ⟨?_, ?_, ?_⟩
  · obtain ⟨rules, hrules, hselectors⟩ := isSheet_of_stylesheet hsheet
    have hexpanded := congrArg
      (List.map (expandedSelector (classSelector component.cssClass))) hselectors
    rw [List.map_map, List.map_map] at hexpanded
    refine ⟨rules, hrules, ?_⟩
    rw [Component.classes, List.map_cons, List.map_map]
    refine congrArg (classSelector component.cssClass :: ·) (hexpanded.trans ?_)
    exact List.map_congr_left fun e _ => expandedSelector_nestedSelector _ e
  · refine ⟨_, isTemplate_of_template hnest hclass htemplate, ?_⟩
    rw [Tree.preorderAll_mapAll]
    rfl
  · intro hfiles text htext
    refine ⟨_, isTwig_of_twig hfiles hnest
      (fun e he => unquoted_of_over (helement e he) (by decide)) (htwig text htext), ?_⟩
    rw [Tree.preorderAll_mapAll, List.map_map]
    refine congrArg (component.cssClass :: ·) (List.map_congr_left fun e _ => ?_)
    exact withBase_twigClass _ e

/-- Each component of a design is rendered into files that speak of its classes. -/
lemma Renders.speakOf {root : LayerTree} {trees : List LayerTree} {components : List Component}
    {artifacts : List ArtifactSet}
    (h : Renders settings here files withTwig root trees components artifacts) :
    List.Forall₂ (fun component artifacts =>
      SpeaksOf files (assetsImport settings here component.name) component artifacts)
      components artifacts := by
  obtain ⟨hfresh, -⟩ := names_of_annotateAll h.annotated
  have hspeaks : ∀ component ∈ components, ∀ artifacts,
      buildArtifacts settings here files withTwig component = .ok artifacts →
      SpeaksOf files (assetsImport settings here component.name) component artifacts := by
    intro component hc artifacts hbuild
    obtain ⟨tree, -, before, after, hannotate⟩ := exists_annotate_of_mem h.annotated component hc
    exact speaksOf_of_buildArtifacts (hfresh component hc).word hannotate hbuild
  have hboth := (List.forall₂_and_left _ _).2 ⟨hspeaks, forall₂_of_mapM h.rendered⟩
  exact hboth.imp fun component artifacts hsteps => hsteps.1 artifacts hsteps.2

/-- Whatever layers are made into components, in order from the first, no two classes are the same. A
run that ends has stored files that speak of these classes, for each component that it found. -/
theorem classesApart_of_syncComponents (settings : Settings) (files : FileMap) (withTwig : Bool)
    (root : LayerTree) :
    (∀ trees components, annotateAll (.initial .standard) [] trees = .ok components →
      ClassesApart components) ∧
    ∀ s given t, s.workspace.Sound →
      (syncComponents settings root files withTwig).exec s = (.ok given, t) →
      ∃ trees components artifacts,
        Renders settings s.workspace.here files withTwig root trees components artifacts ∧
        given = components.map Component.name ∧
        StoresAll (designFiles settings s.workspace.here artifacts) s t ∧
        List.Forall₂ (fun component artifacts => SpeaksOf files
          (assetsImport settings s.workspace.here component.name) component artifacts)
          components artifacts ∧
        ClassesApart components := by
  refine ⟨fun trees components h => classesApart_of_annotateAll h, fun s given t hs h => ?_⟩
  obtain ⟨trees, components, artifacts, hrenders, hgiven, hstores⟩ := stored_of_syncComponents hs h
  exact ⟨trees, components, artifacts, hrenders, hgiven, hstores, hrenders.speakOf,
    classesApart_of_annotateAll hrenders.annotated⟩

/-- Two components whose names differ in case, with stars whose names look like parts of classes. -/
def lookalikes : LayerTree :=
  .node (plainLayer "0:0" "Page" "DOCUMENT") [
    .node (plainLayer "1:1" "card" "COMPONENT") [
      .node (plainLayer "1:2" "2__star" "STAR") [],
      .node (plainLayer "1:3" "Star" "STAR") []],
    .node (plainLayer "1:4" "CARD" "COMPONENT") [
      .node (plainLayer "1:5" "Star" "STAR") [],
      .node (plainLayer "1:6" "_star" "STAR") []]]

theorem classesApart_of_syncComponents_lookalikes : ∃ t trees components artifacts,
    (syncComponents plainSettings lookalikes [] true).exec (.start Workspace.empty) =
      (.ok ["Card", "Card2"], t) ∧
    Renders plainSettings Workspace.empty.here [] true lookalikes trees components artifacts ∧
    components.flatMap Component.classes = (["card", "card__2__star", "card__star", "card2",
      "card2__star", "card2___star"] : List Text) ∧
    ClassesApart components := by
  obtain ⟨-, hrun⟩ := classesApart_of_syncComponents plainSettings [] true lookalikes
  have hnames : ((syncComponents plainSettings lookalikes [] true).exec
      (.start Workspace.empty)).1.toOption = some (["Card", "Card2"] : List Text) := by
    decide +kernel
  have hclasses : ((findComponents lookalikes).bind fun trees =>
      (annotateAll (.initial .standard) [] trees).map fun components =>
        components.flatMap Component.classes).toOption = some (["card", "card__2__star",
          "card__star", "card2", "card2__star", "card2___star"] : List Text) := by
    decide +kernel
  rcases hexec : (syncComponents plainSettings lookalikes [] true).exec (.start Workspace.empty) with
    ⟨result, t⟩
  rw [hexec] at hnames
  obtain rfl := eq_ok_of_toOption hnames
  obtain ⟨trees, components, artifacts, hrenders, -, -, -, hapart⟩ :=
    hrun _ _ _ Workspace.sound_empty hexec
  refine ⟨t, trees, components, artifacts, rfl, hrenders, ?_, hapart⟩
  rw [hrenders.found] at hclasses
  change ((annotateAll (.initial .standard) [] trees).map _).toOption = _ at hclasses
  rw [hrenders.annotated] at hclasses
  exact Option.some.inj hclasses

end

end Handoff
