import Handoff.Proofs.Asset.Downloads
import Handoff.Proofs.Files.Relative
import Handoff.Proofs.Sync.Failing
import Handoff.Proofs.Sync.Scoping
import Handoff.Proofs.Sync.Writing

/-!
What generated files refer to is there after the run.

A template imports pictures by a path from its component's directory to that of the pictures, while
the export saves them by the path in the settings. Both lead to one place, and there are the bytes that
were downloaded for the pictures that show the import.
-/

namespace Handoff

open Action Asset Config Design Files Remote Render Text Token

/-! ### Settings -/

/-- The paths of settings are as they are read. -/
structure Config.Settings.AreRead (settings : Settings) : Prop where
  root : settings.rootDir.IsRead
  tokens : settings.tokensDir.IsRead
  assets : settings.assetsDir.IsRead
  components : settings.componentsDir.IsRead
  twig : settings.twigDir.IsRead

lemma isRead_pathOf {value : Value} {path : Path} (h : pathOf value = .ok path) : path.IsRead := by
  obtain ⟨text, -, h⟩ := bind_eq_ok.1 h
  cases h
  exact isRead_parse text

lemma isRead_directoryAt {output : Value} {root path : Path} {name default : Text} (hroot : root.IsRead)
    (h : directoryAt output root name default = .ok path) : path.IsRead := by
  obtain ⟨value, -, h⟩ := bind_eq_ok.1 h
  obtain ⟨below, hbelow, h⟩ := bind_eq_ok.1 h
  cases h
  exact hroot.join (isRead_pathOf hbelow)

section

variable {α β : Type} {c : Prop} [Decidable c] {x y : Except Fault α} {b : β}

lemma exists_of_ite_eq_ok {next : α → Except Fault β}
    (h : (if c then x >>= next else y >>= next) = .ok b) : ∃ a, next a = .ok b := by
  split at h
  · obtain ⟨a, -, ha⟩ := bind_eq_ok.1 h
    exact ⟨a, ha⟩
  · obtain ⟨a, -, ha⟩ := bind_eq_ok.1 h
    exact ⟨a, ha⟩

lemma of_guard_eq_ok {fault : Fault} {next : Unit → Except Fault β}
    (h : (if c then throw fault >>= next else next ()) = .ok b) : next () = .ok b := by
  split at h
  · cases h
  · exact h

end

/-- Settings are put together from paths that are read. -/
theorem areRead_resolve {config : Value} {env : Fields} {fileKey outputRoot : Value}
    {settings : Settings} (h : Settings.resolve config env fileKey outputRoot = .ok settings) :
    settings.AreRead := by
  obtain ⟨service, -, h⟩ := bind_eq_ok.1 h
  obtain ⟨output, -, h⟩ := bind_eq_ok.1 h
  obtain ⟨exports, -, h⟩ := bind_eq_ok.1 h
  obtain ⟨token, -, h⟩ := bind_eq_ok.1 h
  obtain ⟨ownKey, h⟩ := exists_of_ite_eq_ok h
  have h := of_guard_eq_ok (of_guard_eq_ok h)
  obtain ⟨root, h⟩ := exists_of_ite_eq_ok h
  obtain ⟨rootDir, hroot, h⟩ := bind_eq_ok.1 h
  obtain ⟨tokensDir, htokens, h⟩ := bind_eq_ok.1 h
  obtain ⟨assetsDir, hassets, h⟩ := bind_eq_ok.1 h
  obtain ⟨componentsDir, hcomponents, h⟩ := bind_eq_ok.1 h
  obtain ⟨twigDir, htwig, h⟩ := bind_eq_ok.1 h
  obtain ⟨timeout, -, h⟩ := bind_eq_ok.1 h
  obtain ⟨batchSize, -, h⟩ := bind_eq_ok.1 h
  obtain ⟨rasterScale, -, h⟩ := bind_eq_ok.1 h
  obtain ⟨downloadWorkers, -, h⟩ := bind_eq_ok.1 h
  cases h
  have hread := isRead_pathOf hroot
  exact ⟨hread, isRead_directoryAt hread htokens, isRead_directoryAt hread hassets,
    isRead_directoryAt hread hcomponents, isRead_directoryAt hread htwig⟩

/-! ### Where imports lead -/

/-- Where a source leads that a component's template names, with the working directory `here`. -/
def importTarget (settings : Settings) (here : Location) (name source : Text) : Location :=
  (Path.parse source).locate ((componentDir settings name).locate here)

/-- What an import in a component's template is for: it leads to a file with the pictures, it is shown,
and the file holds what was downloaded for every element that is shown by it. -/
structure LeadsToPicture (settings : Settings) (files : FileMap) (events : List Event) (w : Workspace)
    (component : Component) (markup : Markup) (i : Text × Text) : Prop where
  target : ∃ file, i = (handle file, assetsImport settings w.here component.name ++ "/" ++ file) ∧
    importTarget settings w.here component.name i.2 = (settings.assetsDir.child file).locate w.here
  shown : ∃ tag ∈ Tree.preorderAll markup, tag.Shows i.1
  loaded : ∀ e ∈ component.elements, ∀ tag, templateTag files component e = .ok tag → tag.Shows i.1 →
    ∃ url content, .downloaded e.layer url (.ok content) ∈ events ∧
      w.entry? (importTarget settings w.here component.name i.2) = some (.file content)

section

variable {exporter : Exporter} {layers : List Layer} {events : List Event} {w : Workspace}
  {files : FileMap} {component : Component} {markup : Markup} {ps : List Property} {assetsImport : Text}

/-- The file of an asset is imported, and each import is shown. -/
lemma exists_shown_of_mem_imports (hnest : OnlyContainersNest component.forest)
    (hmarkup : templateMarkup files component = .ok markup) {i : Text × Text}
    (hi : i ∈ (scriptOf files component assetsImport ps markup).imports) :
    ∃ key file, files.file? key = some file ∧ i = (handle file, assetsImport ++ "/" ++ file) ∧
      ∃ tag ∈ Tree.preorderAll markup, tag.Shows i.1 := by
  obtain ⟨file, hfile, rfl⟩ := List.mem_map.1 hi
  obtain ⟨e, he, hfile⟩ := exists_of_mem_shownFiles hfile
  obtain ⟨he, hasset⟩ := List.mem_filter.1 he
  obtain ⟨tag, htag, hdrawn⟩ := exists_of_mem_forall₂ (forall₂_of_markupForest _ hnest hmarkup).flip he
  exact ⟨e.key, file, hfile, rfl, tag, htag, shows_of_file hasset hfile hdrawn⟩

/-- With the files of an export, each import of a component of the design leads to its picture. -/
lemma leadsToPicture_of_sourced (hhere : IsPlace w.here) (hassets : exporter.settings.assetsDir.IsRead)
    (hids : HaveNodeIds layers) (hpictures : PictureFiles files)
    (hsourced : ∀ key file, files.file? key = some file →
      exporter.Sourced layers events w (key, file))
    (hstands : ∀ e ∈ component.elements, e.StandsAmong layers)
    (hnest : OnlyContainersNest component.forest)
    (hmarkup : templateMarkup files component = .ok markup) :
    ∀ i ∈ (scriptOf files component (Handoff.assetsImport exporter.settings w.here component.name) ps
      markup).imports, LeadsToPicture exporter.settings files events w component markup i := by
  intro i hi
  obtain ⟨key, file, hfile, rfl, hshown⟩ := exists_shown_of_mem_imports hnest hmarkup hi
  obtain ⟨layer, format, hname⟩ := hpictures.named hfile
  obtain ⟨stem, hstem, -⟩ := isFileName_of_fileName hname
  have htarget : importTarget exporter.settings w.here component.name
      (Handoff.assetsImport exporter.settings w.here component.name ++ "/" ++ file) =
        (exporter.settings.assetsDir.child file).locate w.here :=
    locate_relativePath_append hhere hassets hstem.isPart
  refine ⟨⟨file, rfl, htarget⟩, hshown, fun e he tag htag hshows => ?_⟩
  obtain ⟨hasset, own, hown, hhandle⟩ := file_of_shows htag hshows
  obtain rfl := hpictures.apart hown hfile hhandle
  obtain ⟨source, hsource, hkey, hkeeps⟩ := hsourced e.key own hown
  have hlayer : e.layer = source :=
    hids.eq_of_key (hstands e he).layer hsource (hstands e he).key hkey
  obtain ⟨url, content, hdownloaded, hstores⟩ := hkeeps.loaded
  refine ⟨url, content, hlayer ▸ hdownloaded, ?_⟩
  rw [htarget]
  exact hstores.entry?

end

/-! ### A run -/

variable {client : Client} {settings : Settings} {options : SyncOptions} {document : Document}
  {s t : World}

/-- The export of a run. -/
def runExporter (client : Client) (settings : Settings) : Exporter :=
  ⟨client, settings, some settings.rootDir⟩

/-- The events of a run's export, which starts where the tokens part ends. -/
def syncEvents (client : Client) (settings : Settings) (options : SyncOptions) (w : Workspace) :
    List Event :=
  let found : Action Document := do
    let document ← fetchDocument client settings
    let _ ← tokensPart client settings options document
    return document
  match found.exec (.start w) with
  | (.ok document, s) => (runExporter client settings).story document.root.preorder s
  | (.error _, _) => []

lemma syncEvents_eq {w : Workspace} {u : World} {count : Nat}
    (hfetch : (fetchDocument client settings).exec (.start w) = (.ok document, u))
    (htokens : (tokensPart client settings options document).exec u = (.ok count, s)) :
    syncEvents client settings options w =
      (runExporter client settings).story document.root.preorder s := by
  have hfound : ((do
      let document ← fetchDocument client settings
      let _ ← tokensPart client settings options document
      return document : Action Document)).exec (.start w) = (.ok document, s) :=
    exec_bind_eq_ok.2 ⟨document, u, hfetch, exec_bind_eq_ok.2 ⟨count, s, htokens, rfl⟩⟩
  simp only [syncEvents, hfound]

/-- A run that writes components downloads the pictures before it. -/
lemma exec_exportAll_of_assetsPart {assets : List Record} (hruns : options.runsComponents = true)
    (h : (assetsPart client settings options document).exec s = (.ok assets, t)) :
    ((runExporter client settings).exportAll document.root.preorder).exec s = (.ok assets, t) := by
  have hassets : options.runsAssets = true := by
    rw [SyncOptions.runsComponents, Bool.and_eq_true] at hruns
    exact hruns.1
  rwa [assetsPart, if_pos hassets] at h

/-- What an export saved stays when the files of components are written. -/
lemma sourced_kept {exporter : Exporter} {layers : List Layer} {events : List Event}
    {w w' : Workspace} {entry : Key × Text} (h : exporter.Sourced layers events w entry)
    (hchanged : Changed ComponentFile w w') : exporter.Sourced layers events w' entry := by
  obtain ⟨layer, hlayer, hkey, hkeeps⟩ := h
  have hfree : ¬ ComponentFile entry.2 := (not_componentFile_of_hasFile hkeeps.named).1
  exact ⟨layer, hlayer, hkey, hkeeps.changed hchanged hfree⟩

/-- A component's template imports pictures of the export. -/
def RefersTemplate (settings : Settings) (here : Location) (files : FileMap) (events : List Event)
    (w : Workspace) (component : Component) (a : ArtifactSet) : Prop :=
  a.componentName = component.name ∧ ∃ ps markup, templateMarkup files component = .ok markup ∧
    a.template =
      (scriptOf files component (assetsImport settings here component.name) ps markup).text ∧
    ∀ i ∈ (scriptOf files component (assetsImport settings here component.name) ps markup).imports,
      LeadsToPicture settings files events w component markup i

lemma refersTemplate_of_sourced (exporter : Exporter) {layers : List Layer} {events : List Event}
    {w : Workspace} {files : FileMap} {component : Component} {roles roles' : RoleMemo}
    {tree : LayerTree} {withTwig : Bool} {a : ArtifactSet} (hhere : IsPlace w.here)
    (hassets : exporter.settings.assetsDir.IsRead) (hids : HaveNodeIds layers)
    (hpictures : PictureFiles files)
    (hsourced : ∀ key file, files.file? key = some file →
      exporter.Sourced layers events w (key, file))
    (hlayers : tree.preorder ⊆ layers)
    (hannotate : annotate .standard roles tree component.name = .ok (component, roles'))
    (ha : buildArtifacts exporter.settings w.here files withTwig component = .ok a) :
    RefersTemplate exporter.settings w.here files events w component a := by
  have hname := name_of_buildArtifacts ha
  obtain ⟨text, htext, ha⟩ := bind_eq_ok.1 ha
  obtain ⟨style, -, ha⟩ := bind_eq_ok.1 ha
  obtain ⟨catalog, -, ha⟩ := bind_eq_ok.1 ha
  obtain ⟨twig, ha⟩ := exists_of_ite_eq_ok ha
  cases ha
  obtain ⟨ps, markup, -, hmarkup, rfl⟩ := exists_script htext
  obtain ⟨-, -, -, hnest⟩ := classes_of_annotate hannotate
  have hstands : ∀ e ∈ component.elements, e.StandsAmong layers := fun e he =>
    (standsAmong_of_annotate hannotate e he).mono hlayers
  exact ⟨hname, ps, markup, hmarkup, rfl,
    leadsToPicture_of_sourced hhere hassets hids hpictures hsourced hstands hnest hmarkup⟩

/-- What the written files of components refer to is there: the partial loads the tokens, and the
templates import pictures of the export. -/
structure Refers (settings : Settings) (here : Location) (files : FileMap) (events : List Event)
    (components : List Component) (artifacts : List ArtifactSet) (w : Workspace) : Prop where
  stored : ∀ e ∈ designFiles settings here artifacts,
    ∃ content, e.2.encode = .ok content ∧ w.Stores e.1 content
  tokens : (Path.parse (tokensImport settings here)).locate (settings.componentsDir.locate here) =
    (settings.tokensDir.child "tokens").locate here
  templates : List.Forall₂ (RefersTemplate settings here files events w) components artifacts

/-- The layers of a component of a design are layers of the design. -/
lemma preorder_subset_of_findComponents {root : LayerTree} {trees : List LayerTree}
    (h : findComponents root = .ok trees) {tree : LayerTree} (ht : tree ∈ trees) :
    tree.preorder ⊆ root.preorder :=
  Tree.preorder_subset_of_mem_subtrees root
    ((areComponents_of_componentsAmong h).sublist.subset ht)

/-- A run that writes components comes to them in a state `u` with the pictures of its export, which
are still there at the end. -/
structure ComesToComponents (client : Client) (settings : Settings) (options : SyncOptions)
    (w : Workspace) (report : SyncReport) (document : Document) (files : FileMap) (u s : World) :
    Prop where
  given : filesOf report.assets = .ok files
  components : (syncComponents settings document.root files options.twig).exec u =
    (.ok report.components, s)
  sound : u.workspace.Sound
  before : u.workspace.here = w.here
  after : s.workspace.here = w.here
  pictures : PictureFiles files
  once : DownloadsOnce (syncEvents client settings options w)
  sourced : ∀ key file, files.file? key = some file →
    (runExporter client settings).Sourced document.root.preorder
      (syncEvents client settings options w) s.workspace (key, file)

lemma comesToComponents_of_sync {w : Workspace} {report : SyncReport} (hw : w.Sound)
    (hruns : options.runsComponents = true)
    (hids : ∀ file document, ((client.file settings.fileKey).exec (.start w)).1 = .ok file →
      Document.read file = .ok document → HaveNodeIds document.root.preorder)
    (h : (sync client settings options).exec (.start w) = (.ok report, s)) :
    ∃ document files u, HaveNodeIds document.root.preorder ∧
      (∃ u, (fetchDocument client settings).exec (.start w) = (.ok document, u)) ∧
      ComesToComponents client settings options w report document files u s := by
  obtain ⟨document, u, parts, hfetch, hparts, rfl⟩ := sync_eq_ok.1 h
  obtain ⟨count, u₁, htokens, hparts⟩ := exec_bind_eq_ok.1 hparts
  obtain ⟨assets, u₂, hassets, hparts⟩ := exec_bind_eq_ok.1 hparts
  obtain ⟨given, t, hcomponents, hparts⟩ := exec_bind_eq_ok.1 hparts
  obtain ⟨hgiven, rfl⟩ := Prod.mk.inj hparts
  cases hgiven
  obtain ⟨answer, hanswer, hdocument⟩ := fetchDocument_eq_ok hfetch
  have hids := hids answer document hanswer hdocument
  -- The file tree stays sound, and the working directory stays where it is.
  have hstart : SameFiles (.start w) u := by
    have hsame := (steady_fetchDocument client settings).sameFiles (.start w)
    rwa [hfetch] at hsame
  have hu : u.workspace.Sound := by
    rw [hstart.workspace]
    exact hw
  obtain ⟨h₁, -⟩ := touched_tokensPart hu htokens
  obtain ⟨h₂, -⟩ := touched_assetsPart h₁.sound hassets
  rw [componentsPart, if_pos hruns] at hcomponents
  obtain ⟨files, u₃, hexec, hsync⟩ := exec_bind_eq_ok.1 hcomponents
  obtain ⟨hfiles, rfl⟩ := exec_ofExcept_eq_ok.1 hexec
  have h₃ := (hasFootprint_syncComponents settings document.root files options.twig).changed h₂.sound
    hsync
  have hhere : u₂.workspace.here = w.here := by
    rw [h₂.grows.here, h₁.grows.here, hstart.workspace]
    rfl
  have hexport := exec_exportAll_of_assetsPart hruns hassets
  have hstory := syncEvents_eq hfetch htokens
  refine ⟨document, files, u₂, hids, ⟨u, hfetch⟩, hfiles, hsync, h₂.sound, hhere,
    h₃.grows.here.trans hhere, pictureFiles_of_filesOf hids h₁.sound hexport hfiles, ?_,
    fun key file hfile => ?_⟩
  · rw [hstory]
    exact (runExporter client settings).downloadsOnce_story (List.Nodup.of_map _ hids.distinct)
  · rw [hstory]
    exact sourced_kept (Exporter.sourced_of_filesOf h₁.sound hids.sharesNoFiles hexport hfiles hfile) h₃

/-- **What a run writes refers to what it saved**: in a run that writes components and ends, whatever the
directories, the imports of each template lead to pictures with the bytes that were downloaded for the
elements that show them, and the partial's import leads to the tokens. -/
theorem sync_imports {w : Workspace} {report : SyncReport} (hw : w.Sound) (hhere : IsPlace w.here)
    (hread : settings.AreRead) (hruns : options.runsComponents = true)
    (hids : ∀ file document, ((client.file settings.fileKey).exec (.start w)).1 = .ok file →
      Document.read file = .ok document → HaveNodeIds document.root.preorder)
    (h : (sync client settings options).exec (.start w) = (.ok report, s)) :
    ∃ document files trees components artifacts,
      (∃ u, (fetchDocument client settings).exec (.start w) = (.ok document, u)) ∧
      filesOf report.assets = .ok files ∧
      Renders settings w.here files options.twig document.root trees components artifacts ∧
      report.components = components.map Component.name ∧
      DownloadsOnce (syncEvents client settings options w) ∧
      Refers settings w.here files (syncEvents client settings options w) components artifacts
        s.workspace := by
  obtain ⟨document, files, u, hids, hfetch, hcomes⟩ := comesToComponents_of_sync hw hruns hids h
  obtain ⟨trees, components, artifacts, hrenders, hnames, hstores⟩ :=
    stored_of_syncComponents hcomes.sound hcomes.components
  rw [hcomes.before] at hrenders hstores
  have htemplates : ∀ component ∈ components, ∀ a,
      buildArtifacts settings w.here files options.twig component = .ok a →
        RefersTemplate settings w.here files (syncEvents client settings options w) s.workspace
          component a := by
    intro component hcomponent a ha
    rw [← hcomes.after] at ha ⊢
    obtain ⟨tree, htree, before, after, hannotate⟩ :=
      exists_annotate_of_mem hrenders.annotated component hcomponent
    refine refersTemplate_of_sourced (runExporter client settings) (hcomes.after ▸ hhere)
      hread.assets hids hcomes.pictures hcomes.sourced ?_ hannotate ha
    exact preorder_subset_of_findComponents hrenders.found htree
  have hbuilt := forall₂_of_mapM hrenders.rendered
  refine ⟨document, files, trees, components, artifacts, hfetch, hcomes.given, hrenders, hnames,
    hcomes.once, hstores.stored, locate_relativePath hhere (hread.tokens.child "tokens"), ?_⟩
  exact ((List.forall₂_and_left ..).2 ⟨htemplates, hbuilt⟩).imp fun _ a h => h.1 a h.2

/-! ### A run from a directory of its own -/

/-- The directory from which a run starts. -/
def home : Location := ["home"]

/-- A file tree with this directory alone. -/
def oneHome : Workspace := { Workspace.empty.put home .directory with here := home }

lemma entry?_oneHome (l : Location) :
    oneHome.entry? l = if l = home then some .directory else Workspace.empty.entry? l :=
  Workspace.entry?_put Workspace.empty home l .directory (List.cons_ne_nil _ _)

lemma sound_oneHome : oneHome.Sound where
  here := (entry?_oneHome home).trans (if_pos rfl)
  above l hl he := by
    by_cases hhome : l = home
    · rw [hhome]
      rfl
    · rw [entry?_oneHome, if_neg hhome] at he
      have habove := Workspace.sound_empty.above l hl he
      rw [entry?_oneHome]
      split
      · rfl
      · exact habove

/-- Settings with paths from the working directory, some of them up and down again. -/
def dottedSettings : Settings :=
  { plainSettings with
    rootDir := ⟨.here, []⟩
    tokensDir := ⟨.here, ["styles"]⟩
    assetsDir := ⟨.here, ["..", "home", "pictures"]⟩
    componentsDir := ⟨.here, ["site", "components"]⟩ }

lemma areRead_dottedSettings : dottedSettings.AreRead := by
  have hread {path : Path} (h : Path.parse path.text = path) : path.IsRead := by
    rw [← h]
    exact isRead_parse _
  exact ⟨hread (by decide), hread (by decide), hread (by decide), hread (by decide), hread (by decide)⟩

/-- A client of a service with the design of one star and with its picture. -/
def starClient : Client := cardClient (.response ⟨200, "OK", .bytes "<svg/>".toUTF8⟩)

lemma haveNodeIds_card : HaveNodeIds cardDocument.root.preorder := by
  have hpair {a b : Text} (ha : IsNumeral a) (hb : IsNumeral b) : IsNodeId (a ++ ":" ++ b) :=
    .pair ha hb
  have hids : cardDocument.root.preorder.map Layer.id =
      (["0:0", "1:1", "1:2"] : List Text).map Value.text := by
    simp only [cardDocument, Tree.preorder_node, Tree.preorderAll_cons, Tree.preorderAll_nil]
    rfl
  refine .of_texts hids ?_ (by decide)
  simp only [List.forall_mem_cons]
  exact ⟨hpair (a := "0") (b := "0") (by decide) (by decide),
    hpair (a := "1") (b := "1") (by decide) (by decide),
    hpair (a := "1") (b := "2") (by decide) (by decide), List.forall_mem_nil _⟩

/-- The star of the component is imported by the path to its picture. -/
theorem sync_imports_star : ∃ report s files components artifacts,
    (sync starClient dottedSettings everything).exec (.start oneHome) = (.ok report, s) ∧
    report.components = ["Card"] ∧ report.assetsExported = 1 ∧
    assetsImport dottedSettings home "Card" = "../../../pictures" ∧
    Refers dottedSettings home files (syncEvents starClient dottedSettings everything oneHome)
      components artifacts s.workspace := by
  have hreport : (((sync starClient dottedSettings everything).exec (.start oneHome)).1.map
      fun report => (report.components, report.assetsExported)).toOption =
        some ((["Card"] : List Text), 1) := by decide +kernel
  have hplace : IsPlace oneHome.here :=
    List.forall_mem_singleton.2 ⟨⟨by decide, by decide⟩, by decide⟩
  have hanswer : ((starClient.file dottedSettings.fileKey).exec (.start oneHome)).1 = .ok cardFile := rfl
  have hread : Document.read cardFile = .ok cardDocument := rfl
  rcases hrun : (sync starClient dottedSettings everything).exec (.start oneHome) with
    ⟨fault | report, s⟩
  · rw [hrun] at hreport
    cases hreport
  · rw [hrun] at hreport
    obtain ⟨hnames, hexported⟩ := Prod.mk.inj (Option.some.inj hreport)
    obtain ⟨document, files, trees, components, artifacts, -, -, -, -, -, hrefers⟩ :=
      sync_imports sound_oneHome hplace areRead_dottedSettings rfl
        (fun file document hfile hdocument => by
          cases hanswer.symm.trans hfile
          cases hread.symm.trans hdocument
          exact haveNodeIds_card) hrun
    exact ⟨report, s, files, components, artifacts, rfl, hnames, hexported, by decide +kernel, hrefers⟩

end Handoff
