import Handoff.Proofs.Asset.Leading
import Handoff.Proofs.Component.Storing
import Handoff.Proofs.Design.Components
import Handoff.Proofs.Sync.Repeating

/-!
What a run leaves in the file tree.

The tokens file, the pictures and the files of the components end in different names, even without
regard to case, so no save of a run writes over the file of a component: at the end each holds what
was rendered for it. This holds for any directories of the output, also when they coincide.
-/

namespace Handoff

open Action Asset Config Design Files Remote Render Text Token

variable {client : Client} {settings : Settings} {options : SyncOptions} {document : Document}
  {s t : World}

/-! ### The parts before the components -/

lemma exec_after_steady {α β : Type} {action : Action α} {next : α → Action β} {b : β}
    (hsteady : Steady action) (h : (action >>= next).exec s = (.ok b, t)) :
    ∃ a u, SameFiles s u ∧ (next a).exec u = (.ok b, t) := by
  obtain ⟨a, u, ha, h⟩ := exec_bind_eq_ok.1 h
  have hsame := hsteady.sameFiles s
  rw [ha] at hsame
  exact ⟨a, u, hsame, h⟩

/-- Writing the tokens that ends does what writing their sheet does but for requests and messages. -/
lemma exists_of_syncTokens {count : Nat}
    (h : (syncTokens client settings document).exec s = (.ok count, t)) :
    ∃ u tokens written, SameFiles s u ∧
      (writeText (some settings.rootDir) (settings.tokensDir.child "_tokens.scss")
        (tokensSheet tokens)).exec u = (.ok written, t) := by
  have hwrite {u : World} {tokens : Tokens} (hu : SameFiles s u) (h : (do
      let _ ← writeText (some settings.rootDir) (settings.tokensDir.child "_tokens.scss")
        (tokensSheet tokens)
      return tokens.count : Action Nat).exec u = (.ok count, t)) :
      ∃ u tokens written, SameFiles s u ∧
        (writeText (some settings.rootDir) (settings.tokensDir.child "_tokens.scss")
          (tokensSheet tokens)).exec u = (.ok written, t) := by
    obtain ⟨written, v, hwritten, h⟩ := exec_bind_eq_ok.1 h
    obtain ⟨-, rfl⟩ := Prod.mk.inj h
    exact ⟨u, tokens, written, hu, hwritten⟩
  obtain ⟨payload, u₁, h₁, h⟩ :=
    exec_after_steady (steady_fetchVariables client settings.fileKey) h
  obtain ⟨tokens, u₂, h₂, h⟩ := exec_after_steady (.ofLogged (gives_extractTokens payload)) h
  obtain ⟨styles, u₃, h₃, h⟩ := exec_after_steady (.ofExcept _) h
  obtain ⟨⟨⟩, u₄, h₄, h⟩ := exec_after_steady (steady_noteStyles styles) h
  have hbefore := ((h₁.trans h₂).trans h₃).trans h₄
  by_cases hempty : tokens.isEmpty = true
  · rw [if_pos hempty] at h
    obtain ⟨⟨⟩, u₅, h₅, h⟩ := exec_after_steady (.log ..) h
    obtain ⟨harvested, u₆, h₆, h⟩ := exec_after_steady (.ofExcept _) h
    exact hwrite ((hbefore.trans h₅).trans h₆) h
  · rw [if_neg hempty] at h
    exact hwrite hbefore h

/-- The tokens part saves the tokens file alone. -/
lemma visited_of_syncTokens {count : Nat} (hs : s.workspace.Sound)
    (h : (syncTokens client settings document).exec s = (.ok count, t)) :
    t.visited.Perm (s.visited ++ [settings.tokensDir.child "_tokens.scss"]) := by
  obtain ⟨u, tokens, written, hu, hwrite⟩ := exists_of_syncTokens h
  rw [← visited_of_sameFiles hu]
  exact (stored_of_writeText (by rw [hu.workspace]; exact hs) (isFileName_tokens.endsIn _)
    hwrite).2.1

/-- The paths of the pictures of layers. -/
def IsPicture (settings : Settings) (layers : List Layer) (path : Path) : Prop :=
  ∃ layer ∈ layers, ∃ file, HasFile layer file ∧ path = settings.assetsDir.child file

/-- An export saves pictures of its layers alone. -/
lemma touches_exportAll (exporter : Exporter) (layers : List Layer) :
    Leads (Touches (IsPicture exporter.settings layers)) (exporter.exportAll layers) := by
  have hcarries : exporter.CarriesSaves (fun file => ∃ layer ∈ layers, HasFile layer file)
      (Touches (IsPicture exporter.settings layers)) := by
    refine ⟨carries_touches _, ?_⟩
    rintro file ⟨layer, hl, hfile⟩ content
    obtain ⟨format, hformat, hname⟩ := hfile
    obtain ⟨stem, hfilename, -⟩ := isFileName_of_fileName hname
    exact leads_writeFile ⟨layer, hl, file, ⟨format, hformat, hname⟩, rfl⟩ (hfilename.endsIn _) _ _
  exact hcarries.exportAll fun format layer hasks file hfile =>
    ⟨layer, hasks.exported.1, format, hasks.exported.2, hfile⟩

/-! ### Paths of a run -/

/-- The paths that a run saves to, those of pictures apart: the tokens file and the files of the
components. -/
def ownPaths (settings : Settings) (options : SyncOptions) (here : Location)
    (artifacts : List ArtifactSet) : List Path :=
  (if options.runsTokens then [settings.tokensDir.child "_tokens.scss"] else []) ++
    (designFiles settings here artifacts).map Prod.fst

lemma lower_tokens : lower "_tokens" = "_tokens" := by decide +kernel

lemma underscore_mem_tokens : .char '_' ∈ (lower "_tokens").toList := by
  rw [lower_tokens]
  decide

/-- The tokens file is unlike the files of the components. -/
lemma tokens_unlike {artifacts : List ArtifactSet} (hnamed : NamedApart artifacts) (here : Location)
    (dir : Path) : ∀ e ∈ designFiles settings here artifacts,
      (dir.child "_tokens.scss").Unlike e.1 := by
  unfold designFiles
  split
  · exact nofun
  · refine List.forall_mem_cons.2 ⟨?_, fun e he => ?_⟩
    · refine isFileName_tokens.unlike isFileName_variables isAscii_scss isAscii_scss (Or.inl ?_) _ _
      rw [lower_tokens, lower_variables]
      decide
    · obtain ⟨a, ha, he⟩ := List.mem_flatMap.1 he
      exact (isArtifact_of_mem settings he).unlike_of_underscore (hnamed.word a ha).1
        (hnamed.word a ha).2 isFileName_tokens isAscii_scss underscore_mem_tokens dir

/-- The own paths of a run are unlike. -/
theorem pairwise_ownPaths {artifacts : List ArtifactSet} (hnamed : NamedApart artifacts)
    (settings : Settings) (options : SyncOptions) (here : Location) :
    (ownPaths settings options here artifacts).Pairwise Path.Unlike := by
  have hfiles : ((designFiles settings here artifacts).map Prod.fst).Pairwise Path.Unlike :=
    List.pairwise_map.2 (hnamed.pairwise_designFiles settings here)
  unfold ownPaths
  split
  · refine List.pairwise_cons.2 ⟨fun p hp => ?_, hfiles⟩
    obtain ⟨e, he, rfl⟩ := List.mem_map.1 hp
    exact tokens_unlike hnamed here _ e he
  · exact hfiles

/-- A picture is unlike the files with another extension and without a hyphen in the stem. -/
lemma picture_unlike {layer : Layer} {file name stem ext : Text} (hfile : HasFile layer file)
    (hname : IsFileName name stem ext) (hext : IsAscii ext)
    (hne : .char '-' ∉ (lower stem).toList) (dir dir' : Path) :
    (dir.child file).Unlike (dir'.child name) := by
  obtain ⟨format, -, hfilename⟩ := hfile
  obtain ⟨stem', hfile, hhyphen⟩ := isFileName_of_fileName hfilename
  have hformat : IsAscii format.name := by
    cases format
    · exact isAscii_ofString (by decide)
    · exact isAscii_ofString (by decide)
  refine hfile.unlike hname hformat hext (Or.inl fun heq => hne ?_) dir dir'
  rw [← heq]
  exact hyphen_mem_lower hfile hhyphen

/-- Pictures are unlike the own paths of a run. -/
theorem picture_unlike_ownPaths {artifacts : List ArtifactSet} (hnamed : NamedApart artifacts)
    (here : Location) {layers : List Layer} {picture : Path}
    (hpicture : IsPicture settings layers picture) :
    ∀ p ∈ ownPaths settings options here artifacts, picture.Unlike p := by
  obtain ⟨layer, -, file, hfile, rfl⟩ := hpicture
  have htokens : (settings.assetsDir.child file).Unlike
      (settings.tokensDir.child "_tokens.scss") :=
    picture_unlike hfile isFileName_tokens isAscii_scss (by rw [lower_tokens]; decide) _ _
  have hvariables : (settings.assetsDir.child file).Unlike
      (settings.componentsDir.child "_variables.scss") :=
    picture_unlike hfile isFileName_variables isAscii_scss (by rw [lower_variables]; decide) _ _
  intro p hp
  rcases List.mem_append.1 hp with hp | hp
  · split at hp
    · cases List.mem_singleton.1 hp
      exact htokens
    · cases hp
  · obtain ⟨e, he, rfl⟩ := List.mem_map.1 hp
    unfold designFiles at he
    split at he
    · cases he
    · rcases List.mem_cons.1 he with rfl | he
      · exact hvariables
      · obtain ⟨a, ha, he⟩ := List.mem_flatMap.1 he
        obtain ⟨dir, ext, hext, hpath⟩ := isArtifact_of_mem settings he
        rw [hpath]
        refine picture_unlike hfile (isFileName_artifact (hnamed.word a ha).1 (hnamed.word a ha).2
          hext) (isAscii_ofString (extensions_apart.1 ext hext).2) (fun hhyphen => ?_) _ _
        exact absurd (over_word_lower (hnamed.word a ha).1 _ hhyphen) (by decide)

/-! ### A whole run -/

lemma touched_tokensPart {count : Nat} (hs : s.workspace.Sound)
    (h : (tokensPart client settings options document).exec s = (.ok count, t)) :
    Changed (· = ("_tokens.scss" : Text)) s.workspace t.workspace ∧
      t.visited.Perm (s.visited ++
        if options.runsTokens then [settings.tokensDir.child "_tokens.scss"] else []) := by
  unfold tokensPart at h
  split at h
  · rename_i hruns
    rw [if_pos hruns]
    exact ⟨(hasFootprint_syncTokens client settings document).changed hs h, visited_of_syncTokens hs h⟩
  · rename_i hruns
    obtain ⟨-, rfl⟩ := Prod.mk.inj h
    rw [if_neg hruns, List.append_nil]
    exact ⟨.refl hs, .refl _⟩

lemma touched_assetsPart {assets : List Record} (hs : s.workspace.Sound)
    (h : (assetsPart client settings options document).exec s = (.ok assets, t)) :
    Touched (IsPicture settings document.root.preorder) s t := by
  unfold assetsPart at h
  split at h
  · have htouched := touches_exportAll ⟨client, settings, some settings.rootDir⟩
      document.root.preorder s hs
    rwa [h] at htouched
  · obtain ⟨-, rfl⟩ := Prod.mk.inj h
    exact .of_sameFiles hs (.refl s)

/-- What a run that writes components leaves: the names reported are those of the components in order,
the paths are different places even without regard to case, and every file of a component holds what
was rendered. -/
structure Leaves (settings : Settings) (options : SyncOptions) (document : Document)
    (here : Location) (report : SyncReport) (trees : List LayerTree) (components : List Component)
    (artifacts : List ArtifactSet) (s : World) : Prop where
  found : AreComponents [] document.root.subtrees trees
  count : report.components.length = trees.length
  named : report.components = components.map Component.name
  ordered : components.map Component.source = trees.map Tree.label
  distinct : (ownPaths settings options here artifacts).Pairwise fun p q =>
    (p.locate here).folded ≠ (q.locate here).folded
  pictures : ∀ p ∈ ownPaths settings options here artifacts,
    ∀ q, IsPicture settings document.root.preorder q →
      (q.locate here).folded ≠ (p.locate here).folded
  visited : ∃ saved, (∀ q ∈ saved, IsPicture settings document.root.preorder q) ∧
    (s.written ++ s.skipped).Perm (saved ++ ownPaths settings options here artifacts)
  stored : ∀ e ∈ designFiles settings here artifacts,
    ∃ content, e.2.encode = .ok content ∧ s.workspace.Stores e.1 content

/-- A run that writes components and ends has rendered them, and leaves each of their files with what
was rendered, for any names of layers and any directories. -/
theorem sync_leaves {w : Workspace} {report : SyncReport} (hw : w.Sound)
    (hruns : options.runsComponents = true)
    (h : (sync client settings options).exec (.start w) = (.ok report, s)) :
    ∃ document files trees components artifacts,
      (∃ u, (fetchDocument client settings).exec (.start w) = (.ok document, u)) ∧
      filesOf report.assets = .ok files ∧
      Renders settings w.here files options.twig document.root trees components artifacts ∧
      Leaves settings options document w.here report trees components artifacts s := by
  obtain ⟨document, u, parts, hfetch, hparts, rfl⟩ := sync_eq_ok.1 h
  obtain ⟨count, u₁, htokens, hparts⟩ := exec_bind_eq_ok.1 hparts
  obtain ⟨assets, u₂, hassets, hparts⟩ := exec_bind_eq_ok.1 hparts
  obtain ⟨given, u₃, hcomponents, hparts⟩ := exec_bind_eq_ok.1 hparts
  obtain ⟨hgiven, rfl⟩ := Prod.mk.inj hparts
  cases hgiven
  have hstart : SameFiles (.start w) u := by
    have hsame := (steady_fetchDocument client settings).sameFiles (.start w)
    rwa [hfetch] at hsame
  have hu : u.workspace.Sound := by
    rw [hstart.workspace]
    exact hw
  obtain ⟨h₁, hvisited₁⟩ := touched_tokensPart hu htokens
  obtain ⟨h₂, saved, hsaved, hvisited₂⟩ := touched_assetsPart h₁.sound hassets
  have hhere : u₂.workspace.here = w.here := by
    rw [h₂.grows.here, h₁.grows.here, hstart.workspace]
    rfl
  rw [componentsPart, if_pos hruns] at hcomponents
  obtain ⟨files, u₃, hexec, hsync⟩ := exec_bind_eq_ok.1 hcomponents
  obtain ⟨hfiles, rfl⟩ := exec_ofExcept_eq_ok.1 hexec
  obtain ⟨trees, components, artifacts, hrenders, hnames, hstores⟩ :=
    stored_of_syncComponents h₂.sound hsync
  rw [hhere] at hrenders hstores
  have hnamed := namedApart_of_buildAll hrenders.annotated hrenders.rendered
  refine ⟨document, files, trees, components, artifacts, ⟨u, hfetch⟩, hfiles, hrenders, ?_⟩
  refine ⟨areComponents_of_componentsAmong hrenders.found, ?_, hnames,
    source_of_annotateAll hrenders.annotated, ?_, ?_, ⟨saved, hsaved, ?_⟩, hstores.stored⟩
  · have hlength := congrArg List.length hnames
    rw [List.length_map, length_of_annotateAll hrenders.annotated] at hlength
    exact hlength
  · exact (pairwise_ownPaths hnamed settings options w.here).imp fun hunlike =>
      hunlike.folded_ne w.here
  · exact fun p hp q hq => (picture_unlike_ownPaths hnamed w.here hq p hp).folded_ne w.here
  · -- The tokens file comes first, then the pictures, then the components.
    have hbefore : u.visited = [] := visited_of_sameFiles hstart
    rw [hbefore, List.nil_append] at hvisited₁
    have hpictures := hvisited₂.trans (hvisited₁.append_right saved)
    have hall := hstores.visited.trans (hpictures.append_right _)
    refine hall.trans ?_
    rw [ownPaths, ← List.append_assoc]
    exact List.perm_append_comm.append_right _

/-! ### A run in which names and directories coincide -/

/-- A design with three components: two whose names are the same but for case, and one with the name of
a story. -/
def crowd : Value :=
  .record [("document", layerValue "0:0" "Page" "DOCUMENT"
    [layerValue "1:1" "card" "COMPONENT" [layerValue "1:2" "Star" "STAR" []],
      layerValue "1:3" "CARD" "COMPONENT" [], layerValue "1:4" "default" "COMPONENT_SET" []])]

/-- A service that knows the design, has no variables, and has the picture of the star. -/
def crowdService : Service := fun earlier request =>
  if request.token.isNone then .response ⟨200, "OK", .bytes "<svg/>".toUTF8⟩
  else if request.params.isSome then .response ⟨200, "OK", .json (.record [("images",
    .record [("1:2", .text "https://pictures/2")])])⟩
  else if earlier.isEmpty then .response ⟨200, "OK", .json crowd⟩
  else .failure .timeout "timed out"

/-- A client of that service. -/
def crowdClient : Client := ⟨.text "token", .int 10, crowdService⟩

/-- Settings with one directory for everything. -/
def oneDirectory : Settings :=
  { plainSettings with
    tokensDir := ⟨.root, ["out"]⟩
    assetsDir := ⟨.root, ["out"]⟩
    componentsDir := ⟨.root, ["out"]⟩
    twigDir := ⟨.root, ["out"]⟩ }

/-- A run for everything, twig files included. -/
def withTwigFiles : SyncOptions := ⟨false, false, false, true⟩

/-- The three components are named apart and written into the one directory. -/
theorem sync_leaves_crowd : ∃ report s document trees components artifacts,
    (sync crowdClient oneDirectory withTwigFiles).exec (.start Workspace.empty) = (.ok report, s) ∧
    report.components = ["Card", "Card2", "Default2"] ∧
    Leaves oneDirectory withTwigFiles document [] report trees components artifacts s := by
  have hnames : (((sync crowdClient oneDirectory withTwigFiles).exec
      (.start Workspace.empty)).1.map SyncReport.components).toOption =
        some (["Card", "Card2", "Default2"] : List Text) := by decide +kernel
  rcases hrun : (sync crowdClient oneDirectory withTwigFiles).exec (.start Workspace.empty) with
    ⟨fault | report, s⟩
  · rw [hrun] at hnames
    cases hnames
  · rw [hrun] at hnames
    obtain ⟨document, files, trees, components, artifacts, -, -, -, hleaves⟩ :=
      sync_leaves Workspace.sound_empty rfl hrun
    exact ⟨report, s, document, trees, components, artifacts, rfl, Option.some.inj hnames, hleaves⟩

end Handoff
