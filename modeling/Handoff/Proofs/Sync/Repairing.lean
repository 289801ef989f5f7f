import Handoff.Proofs.Asset.Covering
import Handoff.Proofs.Asset.InStep
import Handoff.Proofs.Component.InStep
import Handoff.Proofs.Sync.Failing
import Handoff.Proofs.Sync.Writing
import Handoff.Proofs.Token.Contributions

/-!
A run after one that failed in part.

Which files a run saves, the pictures apart, is decided by the design and the settings. So the trees
that a run leaves alone and after another one are compatible, and the two runs stay in step. What
remains of the earlier run are the pictures that the later one does not save.
-/

namespace Handoff

open Action Asset Config Design Files Remote Render Text Token Workspace

variable {client first : Client} {settings : Settings} {options : SyncOptions}
  {document : Document} {s t u v : World} {w w' : Workspace}

/-! ### Runs in step -/

lemma keepsStep_syncTokens (client : Client) (settings : Settings) (document : Document) :
    KeepsStep w w' (syncTokens client settings document) := by
  have hwrite (tokens : Tokens) : KeepsStep w w' (do
      let _ ← writeText (some settings.rootDir) (settings.tokensDir.child "_tokens.scss")
        (tokensSheet tokens)
      return tokens.count) :=
    KeepsStep.writeText_bind (isFileName_tokens.endsIn _) (.of_steady (.pure _))
  refine KeepsStep.after_steady (steady_fetchVariables client settings.fileKey) fun payload => ?_
  refine KeepsStep.after_steady (.ofLogged (gives_extractTokens payload)) fun tokens => ?_
  refine KeepsStep.after_steady (.ofExcept _) fun styles => ?_
  refine KeepsStep.after_steady (steady_noteStyles styles) fun _ => ?_
  refine .ite (KeepsStep.after_steady (.log ..) fun _ => ?_) (hwrite tokens)
  exact KeepsStep.after_steady (.ofExcept _) hwrite

lemma keepsStep_componentsPart (settings : Settings) (options : SyncOptions) (document : Document)
    (assets : List Record) : KeepsStep w w' (componentsPart settings options document assets) :=
  .ite (KeepsStep.after_steady (.ofExcept _) fun files =>
    keepsStep_syncComponents settings document.root files options.twig) (.of_steady (.pure []))

lemma keepsStep_syncParts (hc : Compatible w w') (client : Client) (settings : Settings)
    (options : SyncOptions) (document : Document) :
    KeepsStep w w' (syncParts client settings options document) := by
  have htokens : KeepsStep w w' (tokensPart client settings options document) :=
    .ite (keepsStep_syncTokens client settings document) (.of_steady (.pure 0))
  have hassets : KeepsStep w w' (assetsPart client settings options document) :=
    .ite (Exporter.keepsStep_exportAll _ hc _) (.of_steady (.pure []))
  exact htokens.bind fun count => hassets.bind fun assets =>
    (keepsStep_componentsPart settings options document assets).bind fun names =>
      .of_steady (.pure (count, assets, names))

/-! ### Where a run saves -/

/-- The paths of the tokens file, if it is wanted. -/
def tokensPaths (settings : Settings) (options : SyncOptions) : List Path :=
  if options.runsTokens then [settings.tokensDir.child "_tokens.scss"] else []

/-- The paths of the files of the components, if they are wanted. -/
def componentsPaths (settings : Settings) (options : SyncOptions) (document : Document) :
    Except Fault (List Path) :=
  if options.runsComponents then designPaths settings options.twig document.root else .ok []

/-- The paths that every run with a document saves at. -/
def commonPaths (settings : Settings) (options : SyncOptions) (document : Document) :
    Except Fault (List Path) := do
  let components ← componentsPaths settings options document
  return tokensPaths settings options ++ components

/-- The paths at which a run may save pictures. -/
def IsRunPicture (settings : Settings) (options : SyncOptions) (document : Document) (path : Path) :
    Prop :=
  options.runsAssets = true ∧ IsAskedPicture settings document.root.preorder path

lemma parent_of_isRunPicture {path : Path} (h : IsRunPicture settings options document path) :
    path.parent = settings.assetsDir := by
  obtain ⟨-, format, layer, file, -, hname, rfl⟩ := h
  obtain ⟨stem, hfilename, -⟩ := isFileName_of_fileName hname
  rw [hfilename.child_eq, Path.parent, List.dropLast_concat]

lemma spread_of_exec_tokensPart {count : Nat} (paths : Path → Prop) (hs : s.workspace.Sound)
    (hp : ∀ p ∈ tokensPaths settings options, paths p)
    (h : (tokensPart client settings options document).exec s = (.ok count, t)) :
    t.visited.Perm (s.visited ++ tokensPaths settings options) ∧
      Spread paths (tokensPaths settings options) s.workspace t.workspace := by
  unfold tokensPaths at hp ⊢
  unfold tokensPart at h
  split at h
  · rename_i hruns
    obtain ⟨u, tokens, written, hsame, hwrite⟩ := exists_of_syncTokens h
    have hu : u.workspace.Sound := hsame.workspace ▸ hs
    rw [if_pos hruns] at hp ⊢
    have hspread := spread_of_exec_writeText paths hu (hp _ List.mem_cons_self)
      (isFileName_tokens.endsIn _) hwrite
    rwa [visited_of_sameFiles hsame, hsame.workspace] at hspread
  · rename_i hruns
    cases h
    rw [if_neg hruns, List.append_nil]
    exact ⟨.refl _, .refl paths hs⟩

lemma spread_of_exec_assetsPart {assets : List Record} (paths : Path → Prop)
    (hs : s.workspace.Sound) (hp : ∀ p, IsRunPicture settings options document p → paths p)
    (h : (assetsPart client settings options document).exec s = (.ok assets, t)) :
    ∃ saved, t.visited.Perm (s.visited ++ saved) ∧ Spread paths saved s.workspace t.workspace := by
  unfold assetsPart at h
  split at h
  · rename_i hruns
    have hspreads := Exporter.spreads_exportAll ⟨client, settings, some settings.rootDir⟩
      document.root.preorder s hs
    rw [h] at hspreads
    obtain ⟨saved, hvisited, hspread⟩ := hspreads
    exact ⟨saved, hvisited, hspread.mono fun p hasked => hp p ⟨hruns, hasked⟩⟩
  · cases h
    exact ⟨[], by rw [List.append_nil], .refl paths hs⟩

lemma sound_of_exec_tokensPart {count : Nat} (hs : s.workspace.Sound)
    (h : (tokensPart client settings options document).exec s = (.ok count, t)) :
    t.workspace.Sound :=
  (spread_of_exec_tokensPart (fun _ => True) hs (fun _ _ => trivial) h).2.sound

lemma sound_of_exec_assetsPart {assets : List Record} (hs : s.workspace.Sound)
    (h : (assetsPart client settings options document).exec s = (.ok assets, t)) :
    t.workspace.Sound := by
  obtain ⟨saved, -, hspread⟩ := spread_of_exec_assetsPart (fun _ => True) hs (fun _ _ => trivial) h
  exact hspread.sound

lemma spread_of_exec_componentsPart {assets : List Record} {names : List Text}
    (hs : s.workspace.Sound)
    (h : (componentsPart settings options document assets).exec s = (.ok names, t)) :
    ∃ saved, componentsPaths settings options document = .ok saved ∧
      ∀ paths : Path → Prop, (∀ p ∈ saved, paths p) →
        t.visited.Perm (s.visited ++ saved) ∧ Spread paths saved s.workspace t.workspace := by
  unfold componentsPart at h
  split at h
  · rename_i hruns
    obtain ⟨files, u, hfiles, h⟩ := exec_bind_eq_ok.1 h
    obtain ⟨-, rfl⟩ := exec_ofExcept_eq_ok.1 hfiles
    obtain ⟨trees, components, artifacts, hrenders, -, u, v, hu, hwrites, ht⟩ :=
      exists_of_syncComponents h
    have hnamed := namedApart_of_buildAll hrenders.annotated hrenders.rendered
    refine ⟨_, (if_pos hruns).trans hrenders.paths, fun paths hp => ?_⟩
    have hsound : u.workspace.Sound := hu.workspace.symm ▸ hs
    have hspread := spread_of_exec_writeTexts paths hsound (fun e he =>
      ⟨hp e.1 (List.mem_map_of_mem he), hnamed.endsIn_designFiles settings _ e he⟩) hwrites
    rwa [visited_of_alike hu, hu.workspace, ← visited_of_alike ht, ← ht.workspace] at hspread
  · rename_i hruns
    cases h
    refine ⟨[], if_neg hruns, fun paths _ => ⟨?_, .refl paths hs⟩⟩
    rw [List.append_nil]

/-- Where a run saves: at paths that are common to all runs with the document, and at those of some
pictures. -/
structure SavesAt (settings : Settings) (options : SyncOptions) (document : Document)
    (common saved : List Path) (w w' : Workspace) : Prop where
  paths : commonPaths settings options document = .ok common
  covers : ∀ p ∈ common, p ∈ saved
  spread : Spread (fun p => p ∈ common ∨ IsRunPicture settings options document p) saved w w'

lemma savesAt_of_exec_syncParts {parts : Nat × List Record × List Text} (hs : s.workspace.Sound)
    (h : (syncParts client settings options document).exec s = (.ok parts, t)) :
    ∃ common saved, t.visited.Perm (s.visited ++ saved) ∧
      SavesAt settings options document common saved s.workspace t.workspace := by
  obtain ⟨count, u, htokens, h⟩ := exec_bind_eq_ok.1 h
  obtain ⟨assets, v, hassets, h⟩ := exec_bind_eq_ok.1 h
  obtain ⟨names, v', hcomponents, h⟩ := exec_bind_eq_ok.1 h
  cases h
  -- The paths of the components are known before the first save.
  have hu := sound_of_exec_tokensPart hs htokens
  have hv := sound_of_exec_assetsPart hu hassets
  obtain ⟨components, hpaths, hwritten⟩ := spread_of_exec_componentsPart hv hcomponents
  let common := tokensPaths settings options ++ components
  let paths : Path → Prop := fun p => p ∈ common ∨ IsRunPicture settings options document p
  obtain ⟨hvisited₁, hspread₁⟩ := spread_of_exec_tokensPart paths hs
    (fun p hp => Or.inl (List.mem_append_left _ hp)) htokens
  obtain ⟨pictures, hvisited₂, hspread₂⟩ :=
    spread_of_exec_assetsPart paths hu (fun p hp => Or.inr hp) hassets
  obtain ⟨hvisited₃, hspread₃⟩ :=
    hwritten paths fun p hp => Or.inl (List.mem_append_right _ hp)
  refine ⟨common, tokensPaths settings options ++ pictures ++ components, ?_, ?_, ?_, ?_⟩
  · rw [← List.append_assoc, ← List.append_assoc]
    exact hvisited₃.trans ((hvisited₂.trans (hvisited₁.append_right _)).append_right _)
  · rw [commonPaths, hpaths]
    rfl
  · exact fun p hp => by
      simp only [common, List.mem_append] at hp ⊢
      exact hp.imp Or.inl id
  · exact (hspread₁.trans hspread₂).trans hspread₃

lemma savesAt_of_exec_sync {report : SyncReport} (hw : w.Sound)
    (hdocument : (fetchDocument client settings).exec (.start w) = (.ok document, v))
    (h : (sync client settings options).exec (.start w) = (.ok report, t)) :
    ∃ common, SavesAt settings options document common t.visited w t.workspace := by
  obtain ⟨document', u, parts, hdocument', hparts, -⟩ := sync_eq_ok.1 h
  cases hdocument.symm.trans hdocument'
  have hsame := (steady_fetchDocument client settings).sameFiles_of_exec hdocument
  have hv : v.workspace.Sound := hsame.workspace ▸ hw
  obtain ⟨common, saved, hvisited, hsaves⟩ := savesAt_of_exec_syncParts hv hparts
  rw [visited_of_sameFiles hsame] at hvisited
  rw [hsame.workspace] at hsaves
  exact ⟨common, hsaves.paths, fun p hp => hvisited.mem_iff.2 (hsaves.covers p hp),
    hsaves.spread.perm hvisited.symm⟩

/-- When all requests succeed and give addresses, a run has saved its pictures, unless the tree
refuses them. -/
lemma settled_of_exec_syncParts {parts : Nat × List Record × List Text} (hs : s.workspace.Sound)
    (hcomplete : options.runsAssets = true →
      Complete (pictureEvents client settings options document s))
    (h : (syncParts client settings options document).exec s = (.ok parts, t)) :
    ∀ path, IsRunPicture settings options document path →
      path ∈ t.visited ∨ t.workspace.Refuses path := by
  rintro path ⟨hruns, hasked⟩
  obtain ⟨count, u, htokens, h⟩ := exec_bind_eq_ok.1 h
  obtain ⟨assets, v, hassets, h⟩ := exec_bind_eq_ok.1 h
  obtain ⟨names, v', hcomponents, h⟩ := exec_bind_eq_ok.1 h
  cases h
  have hu := sound_of_exec_tokensPart hs htokens
  have hafter : afterTokens client settings options document s = u := congrArg Prod.snd htokens
  have hevents := hcomplete hruns
  rw [pictureEvents, hafter] at hevents
  have hv := sound_of_exec_assetsPart hu hassets
  rw [assetsPart, if_pos hruns] at hassets
  obtain ⟨saved, -, hwritten⟩ := spread_of_exec_componentsPart hv hcomponents
  obtain ⟨hvisited, hspread⟩ := hwritten (fun _ => True) fun _ _ => trivial
  exact (Exporter.settled_of_exec_exportAll hu hevents hassets path hasked).imp
    (fun hmem => hvisited.mem_iff.2 (List.mem_append_left _ hmem)) hspread.grows.refuses

/-! ### A run after another one -/

/-- At the place is a file that the first run saved and the second one did not. -/
def LeftOver (a b : World) (l : Location) : Prop :=
  (∃ p ∈ a.visited, p.locate a.workspace.here = l) ∧
    ∀ p ∈ b.visited, p.locate b.workspace.here ≠ l

/-- A run has repaired what the run before it left: with the end of the first run, of the second one
made alone, and of the second one made after the first. -/
structure Repaired (settings : Settings) (options : SyncOptions) (document : Document)
    (a b ab : World) : Prop where
  files : ∀ l, ¬ LeftOver a b l → ∀ c,
    ab.workspace.entry? l = some (.file c) ↔ b.workspace.entry? l = some (.file c)
  leftOver : ∀ l, LeftOver a b l →
    (∃ p, IsRunPicture settings options document p ∧ p.locate b.workspace.here = l) ∧
    ∀ c, ab.workspace.entry? l = some (.file c) ↔ a.workspace.entry? l = some (.file c)

variable {a b ab : World} {report report' report'' : SyncReport}

/-- The document that a run reads does not depend on the tree. -/
lemma fetchDocument_eq_ok_of_start (w' : Workspace)
    (h : (fetchDocument client settings).exec (.start w) = (.ok document, t)) :
    ∃ u, (fetchDocument client settings).exec (.start w') = (.ok document, u) := by
  obtain ⟨hsame, -⟩ := (steady_fetchDocument client settings).same (s := .start w)
    (t := .start w') rfl
  rw [h] at hsame
  exact ⟨((fetchDocument client settings).exec (.start w')).2, Prod.ext hsame rfl⟩

/-- A run alone and the same run from another tree are in step at their ends, if these are
compatible. -/
lemma inStep_of_exec_sync (hc : Compatible s.workspace t.workspace) (hw : w.Sound) (hw' : w'.Sound)
    (hhere : w'.here = w.here)
    (h : (sync client settings options).exec (.start w) = (.ok report, s))
    (h' : (sync client settings options).exec (.start w') = (.ok report', t)) : InStep s t := by
  obtain ⟨document, u, parts, hdocument, hparts, -⟩ := sync_eq_ok.1 h
  obtain ⟨document', u', parts', hdocument', hparts', -⟩ := sync_eq_ok.1 h'
  have hkeeps : KeepsStep s.workspace t.workspace
      (fetchDocument client settings >>= syncParts client settings options) :=
    .after_steady (steady_fetchDocument client settings) fun document =>
      keepsStep_syncParts hc client settings options document
  have hstart : InStep (.start w) (.start w') :=
    ⟨⟨hw, hw'⟩, hhere, rfl, fun _ => Iff.rfl, List.forall_mem_nil _⟩
  exact (hkeeps.inStep hstart (exec_bind_eq_ok.2 ⟨_, _, hdocument, hparts⟩)
    (exec_bind_eq_ok.2 ⟨_, _, hdocument', hparts'⟩) (.refl _) (.refl _)).2

section

variable {common : List Path}

/-- The end of a run after another one is compatible with its end alone, because each path that only
one of them may save at lies in the directory of the pictures. -/
lemma compatible_of_savesAt (ha : SavesAt settings options document common a.visited w a.workspace)
    (hb : SavesAt settings options document common b.visited w b.workspace)
    (hab : SavesAt settings options document common ab.visited a.workspace ab.workspace) :
    Compatible b.workspace ab.workspace := by
  have hcommon (p : Path) (hp : p ∈ common ∨ IsRunPicture settings options document p) :
      (p ∈ b.visited ∧ p ∈ a.visited ++ ab.visited) ∨ p.parent = settings.assetsDir :=
    hp.imp (fun hp => ⟨hb.covers p hp, List.mem_append_left _ (ha.covers p hp)⟩)
      parent_of_isRunPicture
  exact hb.spread.compatible (ha.spread.trans hab.spread) hcommon

lemma repaired_of_savesAt (ha : SavesAt settings options document common a.visited w a.workspace)
    (hb : SavesAt settings options document common b.visited w b.workspace)
    (hab : SavesAt settings options document common ab.visited a.workspace ab.workspace)
    (hstep : InStep b ab) : Repaired settings options document a b ab := by
  have hherea := ha.spread.grows.here
  have hhereb := hb.spread.grows.here
  -- Where the later run saves nothing alone, it saves nothing after the other one.
  have hrest {l : Location} (hl : ∀ p ∈ b.visited, p.locate b.workspace.here ≠ l) (c : ByteArray) :
      ab.workspace.entry? l = some (.file c) ↔ a.workspace.entry? l = some (.file c) := by
    refine hab.spread.file l c fun p hp => ?_
    rw [hherea, ← hhereb]
    exact hl p ((hstep.visited p).1 hp)
  constructor
  · intro l hnot c
    by_cases hsaved : ∃ p ∈ b.visited, p.locate b.workspace.here = l
    · obtain ⟨p, hp, rfl⟩ := hsaved
      exact hstep.files p hp c
    · simp only [not_exists, not_and] at hsaved
      have hnota : ∀ p ∈ a.visited, p.locate w.here ≠ l := fun p hp hl =>
        hnot ⟨⟨p, hp, by rw [hherea, hl]⟩, hsaved⟩
      rw [hhereb] at hsaved
      rw [hrest (by rwa [hhereb]) c, ha.spread.file l c hnota, hb.spread.file l c hsaved]
  · rintro l ⟨⟨p, hp, rfl⟩, hnone⟩
    refine ⟨⟨p, ?_, by rw [hherea, hhereb]⟩, hrest hnone⟩
    refine (ha.spread.reached p hp).1.resolve_left fun hp => ?_
    exact hnone p (hb.covers p hp) (by rw [hherea, hhereb])

/-- Nothing is left over when the later run has saved all its pictures that the tree takes. -/
lemma not_leftOver_of_settled
    (ha : SavesAt settings options document common a.visited w a.workspace)
    (hb : SavesAt settings options document common b.visited w b.workspace)
    (hab : SavesAt settings options document common ab.visited a.workspace ab.workspace)
    (hsettled : ∀ path, IsRunPicture settings options document path →
      path ∈ b.visited ∨ b.workspace.Refuses path) (l : Location) : ¬ LeftOver a b l := by
  rintro ⟨⟨p, hp, rfl⟩, hnone⟩
  have hnot : p ∉ b.visited := fun hp =>
    hnone p hp (by rw [ha.spread.grows.here, hb.spread.grows.here])
  obtain ⟨hcommon | hpicture, hreaches⟩ := ha.spread.reached p hp
  · exact hnot (hb.covers p hcommon)
  · have hrefuses := (hsettled p hpicture).resolve_left hnot
    exact (compatible_of_savesAt ha hb hab).symm.not_refuses (hab.spread.grows.reaches hreaches)
      hrefuses

end

/-- **A run after one that failed in part**: a run that reads the same document as the run before
it leaves every file as it does alone, except for pictures that the earlier run saved and it does
not save, which stay as they are. There are none when its requests for pictures succeed and give
addresses for all layers that are asked about. -/
theorem sync_repairs (hw : w.Sound)
    (hfirst : (fetchDocument first settings).exec (.start w) = (.ok document, u))
    (hdocument : (fetchDocument client settings).exec (.start w) = (.ok document, v))
    (ha : (sync first settings options).exec (.start w) = (.ok report, a))
    (hb : (sync client settings options).exec (.start w) = (.ok report', b))
    (hab : (sync client settings options).exec (.start a.workspace) = (.ok report'', ab)) :
    Repaired settings options document a b ab ∧
      ((options.runsAssets = true →
          Complete (pictureEvents client settings options document v)) →
        ∀ l c, ab.workspace.entry? l = some (.file c) ↔ b.workspace.entry? l = some (.file c)) := by
  obtain ⟨v', hdocument'⟩ := fetchDocument_eq_ok_of_start a.workspace hdocument
  obtain ⟨common, hsaves⟩ := savesAt_of_exec_sync hw hfirst ha
  obtain ⟨common', hsaves'⟩ := savesAt_of_exec_sync hw hdocument hb
  obtain ⟨common'', hsaves''⟩ := savesAt_of_exec_sync hsaves.spread.sound hdocument' hab
  -- The paths that all runs save at depend on the document alone.
  cases hsaves.paths.symm.trans hsaves'.paths
  cases hsaves.paths.symm.trans hsaves''.paths
  have hstep : InStep b ab := inStep_of_exec_sync (compatible_of_savesAt hsaves hsaves' hsaves'') hw
    hsaves.spread.sound hsaves.spread.grows.here hb hab
  have hrepaired := repaired_of_savesAt hsaves hsaves' hsaves'' hstep
  refine ⟨hrepaired, fun hcomplete l => hrepaired.files l ?_⟩
  obtain ⟨document', v₁, parts, hdocument₁, hparts, -⟩ := sync_eq_ok.1 hb
  cases hdocument.symm.trans hdocument₁
  have hv : v.workspace.Sound := by
    rw [((steady_fetchDocument client settings).sameFiles_of_exec hdocument).workspace]
    exact hw
  exact not_leftOver_of_settled hsaves hsaves' hsaves''
    (settled_of_exec_syncParts hv hcomplete hparts) l

/-! ### A picture that was lost and a picture that is left -/

/-- A client of a service that knows two stars, with these answers about the variables, the
addresses and the pictures. -/
def starsClient (tokens addresses picture : Answer) : Client :=
  ⟨.text "token", .int 10, fun earlier request =>
    if request.token.isNone then picture
    else if request.params.isSome then addresses
    else if earlier.isEmpty then .response ⟨200, "OK", .json twoStars⟩
    else tokens⟩

/-- An answer with one variable. -/
def brandAnswer : Answer :=
  .response ⟨200, "OK", .json (payloadOf [("1", variableOf "Brand A" "COLOR" red)])⟩

/-- An answer with an address of the first star, and this one of the second star. -/
def addressesAnswer (second : Value) : Answer :=
  .response ⟨200, "OK", .json (.record [("images",
    .record [("1:2", .text "https://pictures/2"), ("1:3", second)])])⟩

/-- An answer with a picture. -/
def pictureAnswer : Answer := .response ⟨200, "OK", .bytes "<svg/>".toUTF8⟩

/-- No answer in time. -/
def noAnswer : Answer := .failure .timeout "timed out"

/-- The client of a service that never fails, and gives this address of the second star. -/
def willingClient (second : Value) : Client :=
  starsClient brandAnswer (addressesAnswer second) pictureAnswer

/-- The design of the two stars. -/
def starsDocument : Document where
  name := .emptyText
  root := .node (plainLayer "0:0" "Page" "DOCUMENT")
    [.node (plainLayer "1:2" "Star" "STAR") [], .node (plainLayer "1:3" "Star" "STAR") []]
  styles := .record []

/-- The place of the picture of the second star. -/
def secondStar : Location := ["out", "assets", "star-1-3.svg"]

lemma fetchDocument_stars {tokens addresses picture : Answer} :
    (fetchDocument (starsClient tokens addresses picture) plainSettings).exec (.start .empty) =
      (.ok starsDocument, ((fetchDocument (starsClient tokens addresses picture) plainSettings).exec
        (.start .empty)).2) := rfl

/-- A run for everything. -/
def starsRun (client : Client) (w : Workspace) : Except Fault SyncReport × World :=
  (sync client plainSettings everything).exec (.start w)

lemma starsRun_eq_ok (h : (starsRun client w).1.isOk = true) :
    ∃ report, (sync client plainSettings everything).exec (.start w) =
      (.ok report, (starsRun client w).2) := by
  unfold starsRun at h ⊢
  rcases hrun : (sync client plainSettings everything).exec (.start w) with ⟨fault | report, t⟩
  · rw [hrun] at h
    cases h
  · exact ⟨report, rfl⟩

/-- Whether there is a file at a place. -/
def isFileAt (w : Workspace) (l : Location) : Bool :=
  match w.entry? l with
  | some (.file _) => true
  | _ => false

lemma exists_of_isFileAt {l : Location} (h : isFileAt w l = true) :
    ∃ c, w.entry? l = some (.file c) := by
  unfold isFileAt at h
  split at h
  · exact ⟨_, by assumption⟩
  · cases h

/-- A run, and another one alone and after it, end well, and their ends pass a test. -/
def passRuns (first client : Client) (test : World → World → World → Bool) : Bool :=
  let a := starsRun first .empty
  let b := starsRun client .empty
  let ab := starsRun client a.2.workspace
  a.1.isOk && b.1.isOk && ab.1.isOk && test a.2 b.2 ab.2

lemma exists_of_passRuns {test : World → World → World → Bool}
    (h : passRuns first client test = true) :
    ∃ report report' report'' a b ab,
      (sync first plainSettings everything).exec (.start .empty) = (.ok report, a) ∧
      (sync client plainSettings everything).exec (.start .empty) = (.ok report', b) ∧
      (sync client plainSettings everything).exec (.start a.workspace) = (.ok report'', ab) ∧
      test a b ab = true := by
  simp only [passRuns, Bool.and_eq_true] at h
  obtain ⟨⟨⟨ha, hb⟩, hab⟩, htest⟩ := h
  obtain ⟨report, ha⟩ := starsRun_eq_ok ha
  obtain ⟨report', hb⟩ := starsRun_eq_ok hb
  obtain ⟨report'', hab⟩ := starsRun_eq_ok hab
  exact ⟨report, report', report'', _, _, _, ha, hb, hab, htest⟩

/-- A run without variables and without pictures is repaired. -/
theorem sync_repairs_lost : ∃ report report' report'' a b ab,
    (sync (starsClient noAnswer (addressesAnswer .null) noAnswer) plainSettings everything).exec
      (.start .empty) = (.ok report, a) ∧
    (sync (willingClient (.text "https://pictures/3")) plainSettings everything).exec
      (.start .empty) = (.ok report', b) ∧
    (sync (willingClient (.text "https://pictures/3")) plainSettings everything).exec
      (.start a.workspace) = (.ok report'', ab) ∧
    a.workspace.entry? secondStar = none ∧
    ∀ l c, ab.workspace.entry? l = some (.file c) ↔ b.workspace.entry? l = some (.file c) := by
  have hruns : passRuns (starsClient noAnswer (addressesAnswer .null) noAnswer)
      (willingClient (.text "https://pictures/3"))
      (fun a _ _ => (a.workspace.entry? secondStar).isNone) = true := by decide +kernel
  obtain ⟨report, report', report'', a, b, ab, ha, hb, hab, hlost⟩ := exists_of_passRuns hruns
  obtain ⟨-, hfiles⟩ := sync_repairs Workspace.sound_empty fetchDocument_stars fetchDocument_stars
    ha hb hab
  exact ⟨report, report', report'', a, b, ab, ha, hb, hab, Option.isNone_iff_eq_none.1 hlost,
    hfiles fun _ => by decide +kernel⟩

/-- The picture that a run saved stays, although no request of the next run fails, when that run is
given no address for it; alone that run leaves no such file. -/
theorem sync_keepsPicture :
    let failing := starsClient noAnswer (addressesAnswer (.text "https://pictures/3")) pictureAnswer
    (variablesAnswer failing plainSettings
      ((fetchDocument failing plainSettings).exec (.start .empty)).2 =
        .error (.transport .timeout "timed out")) ∧
    (∀ earlier request, ∃ body,
      (willingClient .null).service earlier request = .response ⟨200, "OK", body⟩) ∧
    (∀ client ∈ [failing, willingClient .null],
      ((fetchDocument client plainSettings).exec (.start .empty)).1 = .ok starsDocument) ∧
    SharesNoFiles starsDocument.root.preorder ∧
    ∃ report report' report'' a b ab,
      (sync failing plainSettings everything).exec (.start .empty) = (.ok report, a) ∧
      (sync (willingClient .null) plainSettings everything).exec (.start .empty) =
        (.ok report', b) ∧
      (sync (willingClient .null) plainSettings everything).exec (.start a.workspace) =
        (.ok report'', ab) ∧
      (∃ c, ab.workspace.entry? secondStar = some (.file c)) ∧
      b.workspace.entry? secondStar = none := by
  intro failing
  refine ⟨rfl, fun earlier request => ?_, ?_, sharesNoFiles_twoStars read_twoStars, ?_⟩
  · simp only [willingClient, starsClient]
    split
    · exact ⟨_, rfl⟩
    · split
      · exact ⟨_, rfl⟩
      · split <;> exact ⟨_, rfl⟩
  · simp only [List.forall_mem_cons]
    exact ⟨rfl, rfl, List.forall_mem_nil _⟩
  · have hruns : passRuns failing (willingClient .null) (fun _ b ab =>
        isFileAt ab.workspace secondStar && (b.workspace.entry? secondStar).isNone) = true := by
      decide +kernel
    obtain ⟨report, report', report'', a, b, ab, ha, hb, hab, htest⟩ := exists_of_passRuns hruns
    obtain ⟨hkept, hnone⟩ := Bool.and_eq_true_iff.1 htest
    exact ⟨report, report', report'', a, b, ab, ha, hb, hab, exists_of_isFileAt hkept,
      Option.isNone_iff_eq_none.1 hnone⟩

end Handoff
