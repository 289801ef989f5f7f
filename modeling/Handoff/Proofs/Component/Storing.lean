import Handoff.Proofs.Component.Series
import Handoff.Proofs.Component.Writing
import Handoff.Proofs.Files.Folding
import Handoff.Proofs.World.Messages
import Handoff.Proofs.World.Touching

/-!
What a run that writes components leaves in the file tree.

The files of components end in different names, so none of them is written over, and at the end each
holds the text that was rendered for it.
-/

namespace Handoff

open Action Asset Config Design Files Naming Text

/-! ### Texts that are written one after the other -/

namespace Files

variable {root : Option Path} {s t : World}

lemma writeTexts_append (root : Option Path) (texts more : List (Path × Text)) :
    writeTexts root (texts ++ more) = (writeTexts root texts >>= fun _ => writeTexts root more) := by
  induction texts with
  | nil => rfl
  | cons first rest ih =>
    obtain ⟨path, text⟩ := first
    rw [List.cons_append, writeTexts, writeTexts, ih, bind_assoc]

lemma blind_writeTexts (root : Option Path) (texts : List (Path × Text)) :
    Blind (writeTexts root texts) := by
  induction texts with
  | nil => exact .of_steady (.pure ())
  | cons first rest ih =>
    have hfirst : Blind (writeText root first.1 first.2) :=
      (Blind.of_steady (.ofExcept _)).bind fun content => .writeFile root first.1 content
    exact hfirst.bind fun _ => ih

/-- Texts at paths that end in different names are all stored when the last one is written, and
nothing else was saved. -/
theorem stored_of_writeTexts {texts : List (Path × Text)} (hs : s.workspace.Sound)
    (hends : ∀ e ∈ texts, ∃ n, e.1.EndsIn n) (hunlike : texts.Pairwise fun e f => e.1.Unlike f.1)
    (h : (writeTexts root texts).exec s = (.ok (), t)) :
    Changed (fun n => ∃ e ∈ texts, e.1.EndsIn n) s.workspace t.workspace ∧
      t.visited.Perm (s.visited ++ texts.map Prod.fst) ∧
      ∀ e ∈ texts, ∃ content, e.2.encode = .ok content ∧ t.workspace.Stores e.1 content := by
  induction texts generalizing s with
  | nil =>
    cases h
    exact ⟨.refl hs, by simp, by simp⟩
  | cons first rest ih =>
    obtain ⟨path, text⟩ := first
    obtain ⟨⟨name, hname⟩, hends⟩ := List.forall_mem_cons.1 hends
    obtain ⟨hfirst, hunlike⟩ := List.pairwise_cons.1 hunlike
    obtain ⟨written, u, hwrite, h⟩ := exec_bind_eq_ok.1 h
    obtain ⟨hchanged, hvisited, content, hencode, hstores⟩ := stored_of_writeText hs hname hwrite
    obtain ⟨hrest, hvisited', hstored⟩ := ih hchanged.sound hends hunlike h
    refine ⟨(hchanged.mono ?_).trans (hrest.mono ?_), ?_, List.forall_mem_cons.2 ⟨?_, hstored⟩⟩
    · rintro n rfl
      exact ⟨(path, text), List.mem_cons_self, hname⟩
    · rintro n ⟨e, he, hn⟩
      exact ⟨e, List.mem_cons_of_mem _ he, hn⟩
    · refine hvisited'.trans ((hvisited.append_right _).trans ?_)
      rw [List.append_assoc]
      rfl
    · have hfree : ¬ ∃ e ∈ rest, e.1.EndsIn name := fun ⟨e, he, hn⟩ =>
        (hfirst e he).name_ne hname hn
      exact ⟨content, hencode, hrest.stores hname hfree hstores⟩

end Files

/-! ### The files of a component -/

variable {settings : Settings} {here : Location} {files : FileMap} {withTwig : Bool}

/-- The extensions of a component's files. -/
def artifactExtensions : List String := ["jsx", "scss", "stories.jsx", "html.twig"]

/-- The files of a component: the directory, the extension and the text of each. -/
def artifactEntries (settings : Settings) (artifacts : ArtifactSet) : List (Path × String × Text) :=
  let dir := componentDir settings artifacts.componentName
  [(dir, "jsx", artifacts.template), (dir, "scss", artifacts.stylesheet),
    (dir, "stories.jsx", artifacts.catalog)] ++
  artifacts.twig.toList.map fun twig => (settings.twigDir, "html.twig", twig)

/-- The path of a file in a directory, with a stem and an extension. -/
def filePath (dir : Path) (stem : Text) (ext : String) : Path :=
  dir.child (stem ++ ("." ++ ext : Text))

lemma artifactTexts_eq (settings : Settings) (artifacts : ArtifactSet) :
    artifactTexts settings artifacts = (artifactEntries settings artifacts).map fun e =>
      (filePath e.1 artifacts.componentName e.2.1, e.2.2) := by
  have hdot (ext dotted : String) (h : (dotted : Text) = "." ++ (ext : Text)) (dir : Path) :
      dir.child (artifacts.componentName ++ dotted) =
        filePath dir artifacts.componentName ext := by
    rw [filePath, h]
  unfold artifactTexts artifactEntries
  dsimp only
  rw [hdot "jsx" ".jsx" (by decide), hdot "scss" ".scss" (by decide),
    hdot "stories.jsx" ".stories.jsx" (by decide), hdot "html.twig" ".html.twig" (by decide)]
  cases artifacts.twig <;> rfl

lemma extensions_sublist (settings : Settings) (artifacts : ArtifactSet) :
    ((artifactEntries settings artifacts).map fun e => e.2.1).Sublist artifactExtensions := by
  unfold artifactEntries
  cases artifacts.twig with
  | none => exact (List.sublist_append_left ["jsx", "scss", "stories.jsx"] ["html.twig"])
  | some twig => exact .refl _

/-- The extensions are ASCII without slashes, and no two are the same without regard to case. -/
lemma extensions_apart : (∀ ext ∈ artifactExtensions, ext.toList.all (fun c => c ≠ '/') = true ∧
      ext.toList.all (fun c => c.toNat < 128) = true) ∧
    artifactExtensions.Pairwise fun (e f : String) => lower e ≠ lower f := by
  decide +kernel

section

variable {stem other : Text} {ext ext' : String}

lemma isFileName_artifact (hword : Over isWordChar stem) (hne : stem ≠ "")
    (hext : ext ∈ artifactExtensions) :
    IsFileName (stem ++ ("." ++ ext : Text)) stem ext :=
  isFileName_of_word hword hne (extensions_apart.1 ext hext).1

/-- Files of components are unlike when the names or the extensions differ without regard to case. -/
lemma filePath_unlike (hword : Over isWordChar stem) (hne : stem ≠ "")
    (hword' : Over isWordChar other) (hne' : other ≠ "") (hext : ext ∈ artifactExtensions)
    (hext' : ext' ∈ artifactExtensions)
    (hapart : lower stem ≠ lower other ∨ lower (ext : Text) ≠ lower (ext' : Text)) (dir dir' : Path) :
    (filePath dir stem ext).Unlike (filePath dir' other ext') :=
  (isFileName_artifact hword hne hext).unlike (isFileName_artifact hword' hne' hext')
    (isAscii_ofString (extensions_apart.1 ext hext).2)
    (isAscii_ofString (extensions_apart.1 ext' hext').2) hapart dir dir'

end

/-- A path of a component of this name. -/
def IsArtifact (name : Text) (path : Path) : Prop :=
  ∃ dir, ∃ ext ∈ artifactExtensions, path = filePath dir name ext

section

variable (settings : Settings) {artifacts : ArtifactSet}

lemma isArtifact_of_mem {e : Path × Text} (he : e ∈ artifactTexts settings artifacts) :
    IsArtifact artifacts.componentName e.1 := by
  rw [artifactTexts_eq] at he
  obtain ⟨entry, hentry, rfl⟩ := List.mem_map.1 he
  exact ⟨entry.1, entry.2.1,
    (extensions_sublist settings artifacts).subset (List.mem_map_of_mem hentry), rfl⟩

/-- The files of one component are unlike. -/
lemma pairwise_artifactTexts (hword : Over isWordChar artifacts.componentName)
    (hne : artifacts.componentName ≠ "") :
    (artifactTexts settings artifacts).Pairwise fun e f => e.1.Unlike f.1 := by
  have hsub := extensions_sublist settings artifacts
  have hapart := List.pairwise_map.1 (extensions_apart.2.sublist hsub)
  rw [artifactTexts_eq, List.pairwise_map]
  refine hapart.imp_of_mem fun he hf hexts => ?_
  exact filePath_unlike hword hne hword hne (hsub.subset (List.mem_map_of_mem he))
    (hsub.subset (List.mem_map_of_mem hf)) (Or.inr hexts) _ _

end

/-! ### The files of all components -/

section

variable {components : List Component} {artifacts : List ArtifactSet}

lemma names_of_buildAll
    (h : components.mapM (buildArtifacts settings here files withTwig) = .ok artifacts) :
    artifacts.map ArtifactSet.componentName = components.map Component.name :=
  map_eq_of_mapM_eq_ok (fun _ _ ha => name_of_buildArtifacts ha) h

lemma length_of_buildAll
    (h : components.mapM (buildArtifacts settings here files withTwig) = .ok artifacts) :
    artifacts.length = components.length := by
  have hnames := congrArg List.length (names_of_buildAll h)
  rwa [List.length_map, List.length_map] at hnames

/-- The names of artifacts are words, and no two are the same without regard to case. -/
structure NamedApart (artifacts : List ArtifactSet) : Prop where
  word : ∀ a ∈ artifacts, Over isWordChar a.componentName ∧ a.componentName ≠ ""
  apart : artifacts.Pairwise fun a b => lower a.componentName ≠ lower b.componentName

lemma namedApart_of_buildAll {names : ComponentNames} {roles : RoleMemo} {trees : List LayerTree}
    (hall : annotateAll names roles trees = .ok components)
    (h : components.mapM (buildArtifacts settings here files withTwig) = .ok artifacts) :
    NamedApart artifacts := by
  obtain ⟨hfresh, hapart⟩ := names_of_annotateAll hall
  have hnames := names_of_buildAll h
  constructor
  · intro a ha
    have hmem : a.componentName ∈ components.map Component.name := by
      rw [← hnames]
      exact List.mem_map_of_mem ha
    obtain ⟨component, hc, hname⟩ := List.mem_map.1 hmem
    rw [← hname]
    exact ⟨(hfresh component hc).word, (hfresh component hc).ne_empty⟩
  · have hpairs : (components.map Component.name).Pairwise fun a b => lower a ≠ lower b :=
      List.pairwise_map.2 hapart
    rw [← hnames, List.pairwise_map] at hpairs
    exact hpairs

/-- The files of components whose names differ without regard to case are unlike. -/
theorem NamedApart.pairwise (h : NamedApart artifacts) (settings : Settings) :
    (artifacts.flatMap (artifactTexts settings)).Pairwise fun e f => e.1.Unlike f.1 := by
  refine List.pairwise_flatMap.2 ⟨fun a ha => ?_, ?_⟩
  · exact pairwise_artifactTexts settings (h.word a ha).1 (h.word a ha).2
  · refine h.apart.imp_of_mem fun {a b} ha hb hne e he f hf => ?_
    obtain ⟨dir, ext, hext, hpath⟩ := isArtifact_of_mem settings he
    obtain ⟨dir', ext', hext', hpath'⟩ := isArtifact_of_mem settings hf
    rw [hpath, hpath']
    exact filePath_unlike (h.word a ha).1 (h.word a ha).2 (h.word b hb).1 (h.word b hb).2 hext hext'
      (Or.inl hne) dir dir'

/-- The files of components with their texts: those of each component, after the partial that they
share. -/
def seriesFiles (settings : Settings) (here : Location) (artifacts : List ArtifactSet) :
    List (Path × Text) :=
  (settings.componentsDir.child "_variables.scss",
    Token.variablesSheet (tokensImport settings here)) :: artifacts.flatMap (artifactTexts settings)

/-- The files of the components of a design with their texts: those of each component, after the
partial that they share; nothing without components. -/
def designFiles (settings : Settings) (here : Location) (artifacts : List ArtifactSet) :
    List (Path × Text) :=
  if artifacts.isEmpty then []
  else (settings.componentsDir.child "_variables.scss",
    Token.variablesSheet (tokensImport settings here)) :: artifacts.flatMap (artifactTexts settings)

lemma lower_variables : lower "_variables" = "_variables" := by decide +kernel

lemma isAscii_scss : IsAscii "scss" := isAscii_ofString (by decide)

/-- No component has a name with an underscore. -/
lemma lower_ne_of_word {name other : Text} (hword : Over isWordChar name)
    (hother : .char '_' ∈ other.toList) : lower name ≠ other := by
  rintro rfl
  exact absurd (over_word_lower hword _ hother) (by decide)

/-- Files of components are unlike files whose stems have an underscore in front. -/
lemma IsArtifact.unlike_of_underscore {component name stem ext : Text} {path : Path}
    (h : IsArtifact component path) (hword : Over isWordChar component) (hne : component ≠ "")
    (hname : IsFileName name stem ext) (hext : IsAscii ext)
    (hstem : .char '_' ∈ (lower stem).toList) (dir : Path) : (dir.child name).Unlike path := by
  obtain ⟨dir', ext', hext', rfl⟩ := h
  exact hname.unlike (isFileName_artifact hword hne hext') hext
    (isAscii_ofString (extensions_apart.1 ext' hext').2)
    (Or.inl (lower_ne_of_word hword hstem).symm) dir dir'

lemma NamedApart.pairwise_seriesFiles (h : NamedApart artifacts) (settings : Settings)
    (here : Location) : (seriesFiles settings here artifacts).Pairwise fun e f => e.1.Unlike f.1 := by
  refine List.pairwise_cons.2 ⟨fun e he => ?_, h.pairwise settings⟩
  obtain ⟨a, ha, he⟩ := List.mem_flatMap.1 he
  exact (isArtifact_of_mem settings he).unlike_of_underscore (h.word a ha).1 (h.word a ha).2
    isFileName_variables isAscii_scss (by rw [lower_variables]; decide) _

lemma NamedApart.endsIn_seriesFiles (h : NamedApart artifacts) (settings : Settings)
    (here : Location) : ∀ e ∈ seriesFiles settings here artifacts, ∃ n, e.1.EndsIn n := by
  refine List.forall_mem_cons.2 ⟨⟨_, isFileName_variables.endsIn _⟩, fun e he => ?_⟩
  obtain ⟨a, ha, he⟩ := List.mem_flatMap.1 he
  obtain ⟨dir, ext, hext, hpath⟩ := isArtifact_of_mem settings he
  rw [hpath]
  exact ⟨_, (isFileName_artifact (h.word a ha).1 (h.word a ha).2 hext).endsIn dir⟩

/-- The files of a design are unlike. -/
theorem NamedApart.pairwise_designFiles (h : NamedApart artifacts) (settings : Settings)
    (here : Location) : (designFiles settings here artifacts).Pairwise fun e f => e.1.Unlike f.1 := by
  unfold designFiles
  split
  · exact .nil
  · exact h.pairwise_seriesFiles settings here

lemma NamedApart.endsIn_designFiles (h : NamedApart artifacts) (settings : Settings)
    (here : Location) : ∀ e ∈ designFiles settings here artifacts, ∃ n, e.1.EndsIn n := by
  unfold designFiles
  split
  · exact nofun
  · exact h.endsIn_seriesFiles settings here

/-! ### A run that ends -/

variable {root : Option Path} {s t : World}

lemma here_writeText {path : Path} {text : Text} {written : Bool}
    (h : (writeText root path text).exec s = (.ok written, t)) :
    t.workspace.here = s.workspace.here := by
  obtain ⟨content, u, hcontent, hwrite⟩ := exec_bind_eq_ok.1 h
  obtain ⟨-, rfl⟩ := exec_ofExcept_eq_ok.1 hcontent
  obtain ⟨journal, he⟩ := exec_writeFile root path content s
  obtain ⟨-, rfl⟩ := Prod.mk.inj (he.symm.trans hwrite)
  exact Workspace.here_save ..

lemma here_writeTexts {texts : List (Path × Text)}
    (h : (writeTexts root texts).exec s = (.ok (), t)) : t.workspace.here = s.workspace.here := by
  induction texts generalizing s with
  | nil =>
    cases h
    rfl
  | cons first rest ih =>
    obtain ⟨written, u, hwrite, h⟩ := exec_bind_eq_ok.1 h
    exact (ih h).trans (here_writeText hwrite)

lemma visited_of_alike (h : Alike s t) : t.visited = s.visited := by
  obtain ⟨journal, rfl⟩ := h
  rfl

/-- An action that messages do not matter to ends from a state with other messages as well. -/
lemma exec_of_alike {α : Type} {action : Action α} (hblind : Blind action) {s s' t : World} {a : α}
    (halike : Alike s s') (h : action.exec s = (.ok a, t)) :
    ∃ t', action.exec s' = (.ok a, t') ∧ Alike t t' := by
  obtain ⟨hsame, hleft⟩ := hblind.alike halike
  rw [h] at hsame hleft
  exact ⟨(action.exec s').2, Prod.ext hsame rfl, hleft⟩

/-- Writing a component does what writing its texts does but for messages. -/
lemma exists_of_writeComponent {component : Component} {artifacts : ArtifactSet}
    (h : (writeComponent settings component artifacts).exec s = (.ok (), t)) :
    ∃ u, (writeTexts (some settings.rootDir) (artifactTexts settings artifacts)).exec s = (.ok (), u) ∧
      Alike u t := by
  obtain ⟨⟨⟩, v, hlog, h⟩ := exec_bind_eq_ok.1 h
  obtain ⟨⟨⟩, v', hwrite, hlog'⟩ := exec_bind_eq_ok.1 h
  obtain ⟨u, hu, halike⟩ := exec_of_alike (blind_writeTexts _ _) (alike_of_log hlog).symm hwrite
  exact ⟨u, hu, halike.symm.trans (alike_of_log hlog')⟩

/-- Writing components that ends has named, annotated and rendered all of them, and does what writing
their texts does but for the messages in between. -/
theorem exists_of_writeComponents {names : ComponentNames} {roles : RoleMemo}
    {trees : List LayerTree} {given : List Text}
    (h : (writeComponents settings files withTwig names roles trees).exec s = (.ok given, t)) :
    ∃ components artifacts, annotateAll names roles trees = .ok components ∧
      components.mapM (buildArtifacts settings s.workspace.here files withTwig) = .ok artifacts ∧
      given = components.map Component.name ∧
      ∃ u, (writeTexts (some settings.rootDir) (artifacts.flatMap (artifactTexts settings))).exec s =
        (.ok (), u) ∧ Alike u t := by
  induction trees generalizing names roles given s with
  | nil =>
    cases h
    exact ⟨[], [], rfl, rfl, rfl, t, rfl, .refl t⟩
  | cons tree rest ih =>
    rcases hprepare : prepare settings s.workspace.here files withTwig names roles tree with
      fault | ⟨names', roles', component, built⟩
    · obtain ⟨t', -, hfails⟩ := exec_writeComponents_of_error hprepare rest
      cases hfails.symm.trans h
    rw [exec_writeComponents_of_ok hprepare] at h
    obtain ⟨⟨⟩, v, hwrite, h⟩ := exec_bind_eq_ok.1 h
    obtain ⟨others, v', hothers, h⟩ := exec_bind_eq_ok.1 h
    obtain ⟨hgiven, rfl⟩ := Prod.mk.inj h
    cases hgiven
    obtain ⟨components, sets, hall, hbuilt, rfl, u, hwrites, halike⟩ := ih hothers
    -- The messages in between do not change what is written.
    obtain ⟨u₁, hfirst, hu₁⟩ := exists_of_writeComponent hwrite
    obtain ⟨u₂, hrest, hu₂⟩ := exec_of_alike (blind_writeTexts _ _) hu₁.symm hwrites
    rw [hu₁.workspace, here_writeTexts hfirst] at hbuilt
    obtain ⟨⟨name, names'⟩, hnamed, hprepare⟩ := bind_eq_ok.1 hprepare
    obtain ⟨⟨component, roles'⟩, hannotated, hprepare⟩ := bind_eq_ok.1 hprepare
    obtain ⟨built, hrendered, hprepare⟩ := bind_eq_ok.1 hprepare
    cases hprepare
    refine ⟨component :: components, built :: sets, ?_, ?_, rfl, u₂, ?_, hu₂.symm.trans halike⟩
    · rw [annotateAll, hnamed]
      simp only [ok_bind, hannotated, hall]
      rfl
    · rw [List.mapM_cons, hrendered, ok_bind, hbuilt]
      rfl
    · rw [List.flatMap_cons, writeTexts_append, exec_bind_of_ok hfirst, hrest]

/-- What is rendered for a design: its components, each with its files. -/
structure Renders (settings : Settings) (here : Location) (files : FileMap) (withTwig : Bool)
    (root : LayerTree) (trees : List LayerTree) (components : List Component)
    (artifacts : List ArtifactSet) : Prop where
  found : findComponents root = .ok trees
  annotated : annotateAll (.initial .standard) [] trees = .ok components
  rendered : components.mapM (buildArtifacts settings here files withTwig) = .ok artifacts

/-- The texts at some paths are stored, and nothing else was saved. -/
structure StoresAll (texts : List (Path × Text)) (s t : World) : Prop where
  visited : t.visited.Perm (s.visited ++ texts.map Prod.fst)
  stored : ∀ e ∈ texts, ∃ content, e.2.encode = .ok content ∧ t.workspace.Stores e.1 content

lemma StoresAll.congr {texts : List (Path × Text)} {s' t' : World} (h : StoresAll texts s t)
    (hs : Alike s s') (ht : Alike t t') : StoresAll texts s' t' where
  visited := by
    rw [visited_of_alike hs, visited_of_alike ht]
    exact h.visited
  stored := by
    rw [ht.workspace]
    exact h.stored

/-- Components that were written have been rendered, and writing them does what writing their files does
but for messages. -/
lemma exists_of_writeSeries {trees : List LayerTree} {given : List Text}
    (h : (writeSeries settings files withTwig trees).exec s = (.ok given, t)) :
    ∃ components artifacts, annotateAll (.initial .standard) [] trees = .ok components ∧
      components.mapM (buildArtifacts settings s.workspace.here files withTwig) = .ok artifacts ∧
      given = components.map Component.name ∧
      ∃ u, (writeTexts (some settings.rootDir) (seriesFiles settings s.workspace.here artifacts)).exec s =
        (.ok (), u) ∧ Alike u t := by
  obtain ⟨world, v, hget, h⟩ := exec_bind_eq_ok.1 h
  cases hget
  obtain ⟨written, v, hpartial, h⟩ := exec_bind_eq_ok.1 h
  obtain ⟨components, artifacts, hall, hbuilt, hgiven, u, hwrites, halike⟩ := exists_of_writeComponents h
  rw [here_writeText hpartial] at hbuilt
  refine ⟨components, artifacts, hall, hbuilt, hgiven, u, ?_, halike⟩
  rw [seriesFiles, writeTexts, exec_bind_of_ok hpartial]
  exact hwrites

/-- Writing the components of a design that ends has rendered them, and does what writing their texts
does but for messages. -/
theorem exists_of_syncComponents {root : LayerTree} {given : List Text}
    (h : (syncComponents settings root files withTwig).exec s = (.ok given, t)) :
    ∃ trees components artifacts,
      Renders settings s.workspace.here files withTwig root trees components artifacts ∧
        given = components.map Component.name ∧ ∃ u v, Alike s u ∧
          (writeTexts (some settings.rootDir)
            (designFiles settings s.workspace.here artifacts)).exec u = (.ok (), v) ∧ Alike v t := by
  have hrun := h
  obtain ⟨⟨⟩, u₁, hlog, h₁⟩ := exec_bind_eq_ok.1 h
  obtain ⟨trees, u₂, htrees, h₂⟩ := exec_bind_eq_ok.1 h₁
  obtain ⟨hfound, rfl⟩ := exec_ofExcept_eq_ok.1 htrees
  by_cases hempty : trees = []
  · subst hempty
    obtain ⟨⟨⟩, u₃, hwarn, h₃⟩ := exec_bind_eq_ok.1 h₂
    obtain ⟨hgiven, rfl⟩ := Prod.mk.inj h₃
    cases hgiven
    exact ⟨[], [], [], ⟨hfound, rfl, rfl⟩, rfl, u₃, u₃,
      (alike_of_log hlog).trans (alike_of_log hwarn), rfl, .refl u₃⟩
  · obtain ⟨u, halike, hseries⟩ := exec_syncComponents_of_found settings files withTwig hfound hempty s
    rw [hseries] at hrun
    obtain ⟨components, artifacts, hall, hbuilt, hgiven, v, hwrites, hend⟩ := exists_of_writeSeries hrun
    rw [halike.workspace] at hbuilt hwrites
    have hlength : artifacts.length = trees.length :=
      (length_of_buildAll hbuilt).trans (length_of_annotateAll hall)
    have hsome : ¬ artifacts.isEmpty = true := by
      rw [List.isEmpty_iff_length_eq_zero, hlength, List.length_eq_zero_iff]
      exact hempty
    refine ⟨trees, components, artifacts, ⟨hfound, hall, hbuilt⟩, hgiven, u, v, halike, ?_, hend⟩
    rw [designFiles, if_neg hsome]
    exact hwrites

/-- Writing the components of a design leaves every file with the text that was rendered for it. -/
theorem stored_of_syncComponents {root : LayerTree} {given : List Text} (hs : s.workspace.Sound)
    (h : (syncComponents settings root files withTwig).exec s = (.ok given, t)) :
    ∃ trees components artifacts,
      Renders settings s.workspace.here files withTwig root trees components artifacts ∧
        given = components.map Component.name ∧
        StoresAll (designFiles settings s.workspace.here artifacts) s t := by
  obtain ⟨trees, components, artifacts, hrenders, hgiven, u, v, halike, hwrites, hend⟩ :=
    exists_of_syncComponents h
  have hnamed := namedApart_of_buildAll hrenders.annotated hrenders.rendered
  obtain ⟨-, hvisited, hstored⟩ := stored_of_writeTexts (by rw [halike.workspace]; exact hs)
    (hnamed.endsIn_designFiles settings s.workspace.here)
    (hnamed.pairwise_designFiles settings s.workspace.here) hwrites
  exact ⟨trees, components, artifacts, hrenders, hgiven,
    StoresAll.congr ⟨hvisited, hstored⟩ halike.symm hend⟩

end

end Handoff
