import Handoff.Proofs.Sync.Asking
import Handoff.Proofs.Sync.Importing
import Handoff.Proofs.Sync.Repairing

/-!
What a run does to the world, and what it reports of that.

It saves files of the design at the paths that the settings give, each place once, and leaves all other
files alone. It asks for the design file, then for the variables, then for pictures, and only the service
itself is sent the token. Each save is counted: as skipped when the file stays what it was, as written
otherwise, unless the path of the file goes up from a directory that was missing.
-/

namespace Handoff

open Action Asset Config Design Files Remote Render Text Token Workspace

/-! ### What a run is for -/

/-- What a run is for. -/
inductive RunMode where
  | everything
  | tokensOnly
  | componentsOnly
  | assetsOnly
deriving DecidableEq

namespace RunMode

variable {mode : RunMode} {twig : Bool}

/-- The options of a run, with or without twig files. -/
def options (twig : Bool) : RunMode → SyncOptions
  | everything => ⟨false, false, false, twig⟩
  | tokensOnly => ⟨true, false, false, twig⟩
  | componentsOnly => ⟨false, true, false, twig⟩
  | assetsOnly => ⟨false, false, true, twig⟩

@[simp] lemma twig_options : (mode.options twig).twig = twig := by cases mode <;> rfl

@[simp] lemma runsTokens_options :
    (mode.options twig).runsTokens = decide (mode ∈ [everything, tokensOnly]) := by
  cases mode <;> rfl

@[simp] lemma runsAssets_options : (mode.options twig).runsAssets = decide (mode ≠ tokensOnly) := by
  cases mode <;> rfl

@[simp] lemma runsComponents_options :
    (mode.options twig).runsComponents = decide (mode ∈ [everything, componentsOnly]) := by
  cases mode <;> rfl

end RunMode

variable {client : Client} {settings : Settings} {options : SyncOptions} {document : Document}
  {mode : RunMode} {twig : Bool} {w : Workspace} {s t v : World} {report : SyncReport}

/-! ### The files -/

/-- The files that a run may save: the tokens file, the pictures of candidates, and the files of the
components. -/
inductive MaySave (settings : Settings) (mode : RunMode) (twig : Bool) (document : Document) :
    Path → Prop where
  | tokens (hmode : mode ∈ [.everything, .tokensOnly]) :
    MaySave settings mode twig document (settings.tokensDir.child "_tokens.scss")
  | picture {layer : Layer} {file : Text} (hmode : mode ≠ .tokensOnly)
    (hlayer : layer ∈ document.root.preorder) (hcandidate : layer.isAssetCandidate = .ok true)
    (hfile : HasFile layer file) : MaySave settings mode twig document (settings.assetsDir.child file)
  | component {paths : List Path} {path : Path} (hmode : mode ∈ [.everything, .componentsOnly])
    (hpaths : designPaths settings twig document.root = .ok paths) (hpath : path ∈ paths) :
    MaySave settings mode twig document path

lemma maySave_of_isRunPicture {path : Path}
    (h : IsRunPicture settings (mode.options twig) document path) :
    MaySave settings mode twig document path := by
  obtain ⟨hruns, format, layer, file, hasks, hfile, rfl⟩ := h
  obtain ⟨hlayer, hformat⟩ := hasks.exported
  have hcandidate : layer.isAssetCandidate = .ok true := by
    obtain ⟨partitions, parts, hpartitions, hparts, hmem⟩ := hasks
    obtain ⟨candidates, hcandidates, hpartitions⟩ := bind_eq_ok.1 hpartitions
    have hof := (batches_flatten_sublist hparts).subset hmem
    exact isAssetCandidate_of_mem hcandidates layer ((partition_sublist hpartitions format).subset hof)
  exact .picture (by simpa using hruns) hlayer hcandidate ⟨format, hformat, hfile⟩

lemma maySave_of_common {common : List Path}
    (h : commonPaths settings (mode.options twig) document = .ok common) :
    ∀ p ∈ common, MaySave settings mode twig document p := by
  obtain ⟨paths, hpaths, h⟩ := bind_eq_ok.1 h
  cases h
  refine List.forall_mem_append.2 ⟨fun p hp => ?_, fun p hp => ?_⟩
  · rw [tokensPaths, RunMode.runsTokens_options] at hp
    split at hp
    · rename_i hmode
      cases List.mem_singleton.1 hp
      exact .tokens (of_decide_eq_true hmode)
    · cases hp
  · rw [componentsPaths, RunMode.runsComponents_options, RunMode.twig_options] at hpaths
    split at hpaths
    · rename_i hmode
      exact .component (of_decide_eq_true hmode) hpaths hp
    · cases hpaths
      cases hp

/-! ### The requests -/

namespace Action.Echoes

variable {α : Type} {kind : Request → Prop} {action action' : Action α} {outcome : Except Fault α}

/-- What an action has asked for at its end. -/
lemma asked_of_exec (h : Echoes 0 kind action action') (he : action.exec s = (outcome, t)) :
    Asked kind s t := by
  have hasked := (h.run s (Nat.zero_le _)).2
  rwa [he] at hasked

/-- An action that asks for nothing of any kind has made no request. -/
lemma requests_of_exec (h : Echoes 0 (fun _ => False) action action')
    (he : action.exec s = (outcome, t)) : t.requests = s.requests := (h.asked_of_exec he).requests_eq

end Action.Echoes

/-- The tokens part asks for the variables once. -/
lemma requests_tokensPart {count : Nat}
    (h : (tokensPart client settings options document).exec s = (.ok count, t)) :
    t.requests = s.requests ++ if options.runsTokens then [variablesRequest client settings] else [] := by
  unfold tokensPart at h
  split at h
  · rename_i hruns
    rw [syncTokens_eq] at h
    obtain ⟨answer, u, hask, h⟩ := exec_bind_eq_ok.1 h
    have hasked := requests_askVariables client settings s
    rw [hask] at hasked
    have hrest := ((echoes_takeVariables answer).bind fun payload =>
      echoes_writeTokens document payload).requests_of_exec h
    rw [hrest, hasked, if_pos hruns]
  · rename_i hruns
    cases h
    rw [if_neg hruns, List.append_nil]

/-- The requests of a run: for the design file, for the variables if tokens are wanted, and for
pictures if they are. -/
lemma requests_of_exec_syncParts {parts : Nat × List Record × List Text}
    (hdocument : (fetchDocument client settings).exec (.start w) = (.ok document, v))
    (h : (syncParts client settings options document).exec v = (.ok parts, t)) :
    ∃ pictures, t.requests = fileRequest client settings ::
        (if options.runsTokens then [variablesRequest client settings] else []) ++ pictures ∧
      ∀ r ∈ pictures, options.runsAssets = true ∧ IsPictureRequest client settings.fileKey r := by
  obtain ⟨count, u, htokens, h⟩ := exec_bind_eq_ok.1 h
  obtain ⟨assets, u', hassets, h⟩ := exec_bind_eq_ok.1 h
  have hfile := requests_fetchDocument client settings (.start w)
  rw [hdocument] at hfile
  obtain ⟨pictures, hpictures, hkind⟩ :=
    (echoes_assetsPart (.refl 0 client) document).asked_of_exec hassets
  have hcomponents := ((echoes_componentsPart document assets).bind fun components =>
    .pure (count, assets, components)).requests_of_exec h
  refine ⟨pictures, ?_, hkind⟩
  rw [hcomponents, hpictures, requests_tokensPart htokens, hfile]
  rfl

/-- The token of the request, if it has one, is sent to the service. -/
def Remote.Request.KeepsToken (r : Request) : Prop :=
  r.token ≠ none → ∃ rest, r.url = .text ("https://api.figma.com/v1/" ++ rest)

lemma keepsToken_callRequest (client : Client) (path : Text)
    (params : Option (List (Text × Value))) : (client.callRequest ("/" ++ path) params).KeepsToken :=
  fun _ => ⟨path, congrArg Value.text (Text.append_assoc ..).symm⟩

lemma keepsToken_fileRequest (client : Client) (settings : Settings) :
    (fileRequest client settings).KeepsToken :=
  keepsToken_callRequest client ("files/" ++ settings.fileKey.display) none

lemma keepsToken_variablesRequest (client : Client) (settings : Settings) :
    (variablesRequest client settings).KeepsToken :=
  keepsToken_callRequest client ("files/" ++ settings.fileKey.display ++ "/variables/local") none

lemma keepsToken_of_isPictureRequest {fileKey : Value} {r : Request}
    (h : IsPictureRequest client fileKey r) : r.KeepsToken := by
  rcases h with ⟨ids, format, scale, rfl⟩ | ⟨url, rfl⟩
  · exact keepsToken_callRequest client ("images/" ++ fileKey.display) _
  · exact fun htoken => absurd rfl htoken

/-! ### The report -/

/-- What a run has done to the world, and what its report says of that. Of the files that it saved, the
skipped ones are what they were; a written one is not, unless the path goes up from a directory that was
missing. -/
structure Accounts (client : Client) (settings : Settings) (mode : RunMode) (twig : Bool)
    (document : Document) (w : Workspace) (report : SyncReport) (t : World) : Prop where
  saved : ∀ p ∈ t.visited, MaySave settings mode twig document p ∧
    ∃ c, t.workspace.entry? (p.locate w.here) = some (.file c)
  others : ∀ l c, (∀ p ∈ t.visited, p.locate w.here ≠ l) →
    (t.workspace.entry? l = some (.file c) ↔ w.entry? l = some (.file c))
  requests : ∃ pictures, t.requests = fileRequest client settings ::
      (if mode ∈ [.everything, .tokensOnly] then [variablesRequest client settings] else []) ++
        pictures ∧
    ∀ r ∈ pictures, mode ≠ .tokensOnly ∧ IsPictureRequest client settings.fileKey r
  token : ∀ r ∈ t.requests, r.KeepsToken
  counts : report.filesWritten = t.written.length ∧ report.filesSkipped = t.skipped.length
  distinct : (t.visited.map (Path.locate w.here)).Nodup
  kept : ∀ p ∈ t.skipped, Kept w t.workspace p
  changed : ∀ p ∈ t.written, Kept w t.workspace p →
    w.look p = .error .missing ∧ (".." : Text) ∈ p.parts

/-- **A run accounts for what it does**: every file that it changes and every request that it makes is one
that its mode asks for, and it counts each file that it saves once, by whether the file changed; only
behind two dots it takes a file that is there for missing and counts it as written. -/
theorem sync_accounts (hw : w.Sound)
    (hdocument : (fetchDocument client settings).exec (.start w) = (.ok document, v))
    (hapart : SharesNoFiles document.root.preorder)
    (h : (sync client settings (mode.options twig)).exec (.start w) = (.ok report, t)) :
    Accounts client settings mode twig document w report t := by
  obtain ⟨common, hsaves⟩ := savesAt_of_exec_sync hw hdocument h
  obtain ⟨document', v', parts, hdocument', hparts, hreport⟩ := sync_eq_ok.1 h
  cases hdocument.symm.trans hdocument'
  have hsame := (steady_fetchDocument client settings).sameFiles_of_exec hdocument
  have hv : v.workspace = w := hsame.workspace
  obtain ⟨written, skipped, htally⟩ :=
    (hasFootprint_syncParts client settings (mode.options twig) hapart).reported (hv ▸ hw) hparts
  obtain ⟨pictures, hrequests, hpictures⟩ := requests_of_exec_syncParts hdocument hparts
  have hwritten : t.written = written := by rw [htally.written_eq, hsame.written]; rfl
  have hskipped : t.skipped = skipped := by rw [htally.skipped_eq, hsame.skipped]; rfl
  simp only [RunMode.runsTokens_options, RunMode.runsAssets_options, decide_eq_true_eq]
    at hrequests hpictures
  subst hwritten hskipped
  exact {
    saved := fun p hp => by
      obtain ⟨hpath, hreaches⟩ := hsaves.spread.reached p hp
      refine ⟨hpath.elim (maySave_of_common hsaves.paths p) maySave_of_isRunPicture, ?_⟩
      rw [← hsaves.spread.grows.here]
      exact hreaches.file
    others := hsaves.spread.file
    requests := ⟨pictures, hrequests, hpictures⟩
    token := by
      rw [hrequests]
      refine List.forall_mem_append.2 ⟨List.forall_mem_cons.2
        ⟨keepsToken_fileRequest client settings, fun r hr => ?_⟩,
        fun r hr => keepsToken_of_isPictureRequest (hpictures r hr).2⟩
      split at hr
      · cases List.mem_singleton.1 hr
        exact keepsToken_variablesRequest client settings
      · cases hr
    counts := by rw [hreport]; exact ⟨rfl, rfl⟩
    distinct := htally.nodup w.here
    kept := hv ▸ htally.kept
    changed := fun p hp hkept => by
      rw [← hv] at hkept ⊢
      exact ⟨htally.changed p hp hkept, htally.dots_mem (hv ▸ hw) hp hkept⟩ }

/-- A run for two stars saves the tokens and both pictures. -/
theorem sync_accounts_stars : ∃ report t,
    (sync (willingClient (.text "https://pictures/3")) plainSettings
      (RunMode.everything.options false)).exec (.start .empty) = (.ok report, t) ∧
    Accounts (willingClient (.text "https://pictures/3")) plainSettings .everything false starsDocument
      .empty report t ∧
    report.filesWritten = 3 ∧ report.filesSkipped = 0 := by
  have hrun : ((starsRun (willingClient (.text "https://pictures/3")) .empty).1.map fun report =>
      (report.filesWritten, report.filesSkipped)).toOption = some (3, 0) := by decide +kernel
  rcases h : starsRun (willingClient (.text "https://pictures/3")) .empty with ⟨fault | report, t⟩
  · rw [h] at hrun
    cases hrun
  · rw [h] at hrun
    obtain ⟨hwritten, hskipped⟩ := Prod.mk.inj (Option.some.inj hrun)
    exact ⟨report, t, h, sync_accounts Workspace.sound_empty fetchDocument_stars
      (sharesNoFiles_twoStars read_twoStars) h, hwritten, hskipped⟩

/-! ### A file that is taken for missing -/

/-- The client of a service that knows a page without anything on it, and no variables. -/
def blankClient : Client :=
  ⟨.text "token", .int 10, fun earlier _ => .response ⟨200, "OK", .json
    (if earlier.isEmpty then .record [("document", layerValue "0:0" "Page" "DOCUMENT" [])]
      else noVariables)⟩⟩

/-- The design of that page. -/
def blankDocument : Document where
  name := .emptyText
  root := .node (plainLayer "0:0" "Page" "DOCUMENT") []
  styles := .record []

/-- Settings with a directory for tokens that is written with a detour. -/
def detour : Settings := { plainSettings with tokensDir := ⟨.here, ["build", "..", "src", "styles"]⟩ }

/-- A tree with the tokens file of that page, and without the directory of the detour. -/
def beforeDetour : Workspace :=
  (oneHome.save ⟨.here, ["src", "styles", "_tokens.scss"]⟩
    ((tokensSheet ⟨[], [], [], []⟩).encode.toOption.getD .empty)).2

/-- The entries of a place are files with the same content. -/
def keepsAt (w w' : Workspace) (l : Location) : Bool :=
  match w.entry? l, w'.entry? l with
  | some (.file c), some (.file c') => c == c'
  | _, _ => false

lemma kept_of_keepsAt {path : Path} {w' : Workspace} (h : keepsAt w w' (path.locate w.here) = true) :
    Kept w w' path := by
  unfold keepsAt at h
  split at h
  · rename_i c c' hc hc'
    rw [beq_content] at h
    cases h
    exact ⟨c, hc, hc'⟩
  · cases h

/-- The tokens file stays what it was, and is counted as written. -/
theorem sync_countsKept : ∃ report t,
    beforeDetour.Sound ∧
    ((fetchDocument blankClient detour).exec (.start beforeDetour)).1 = .ok blankDocument ∧
    SharesNoFiles blankDocument.root.preorder ∧
    (sync blankClient detour (RunMode.tokensOnly.options false)).exec (.start beforeDetour) =
      (.ok report, t) ∧
    t.visited = [detour.tokensDir.child "_tokens.scss"] ∧
    Kept beforeDetour t.workspace (detour.tokensDir.child "_tokens.scss") ∧
    report.filesWritten = 1 ∧ report.filesSkipped = 0 := by
  have hsound : beforeDetour.Sound := by
    have hname : Path.EndsIn ⟨.here, ["src", "styles", "_tokens.scss"]⟩ "_tokens.scss" :=
      isFileName_tokens.endsIn ⟨.here, ["src", "styles"]⟩
    have hspread : Spread (fun _ => True) _ oneHome beforeDetour :=
      .of_save sound_oneHome trivial hname _
    exact hspread.sound
  have hrun : (fun run : Except Fault SyncReport × World => (run.1.toOption.map fun report =>
      (report.filesWritten, report.filesSkipped, run.2.visited,
        keepsAt beforeDetour run.2.workspace
          ((detour.tokensDir.child "_tokens.scss").locate beforeDetour.here))))
      ((sync blankClient detour (RunMode.tokensOnly.options false)).exec (.start beforeDetour)) =
        some (1, 0, [detour.tokensDir.child "_tokens.scss"], true) := by decide +kernel
  rcases h : (sync blankClient detour (RunMode.tokensOnly.options false)).exec
    (.start beforeDetour) with ⟨fault | report, t⟩
  · rw [h] at hrun
    cases hrun
  · rw [h] at hrun
    simp only [Except.toOption, Option.map_some, Option.some.injEq, Prod.mk.injEq] at hrun
    obtain ⟨hwritten, hskipped, hvisited, hkept⟩ := hrun
    exact ⟨report, t, hsound, rfl, List.pairwise_singleton _ _, rfl, hvisited, kept_of_keepsAt hkept,
      hwritten, hskipped⟩

end Handoff
