import Handoff.Proofs.Asset.Footprint
import Handoff.Proofs.Component.Footprint
import Handoff.Proofs.Design.Typed
import Handoff.Proofs.Sync.Parts

/-!
Running a synchronisation again.

The tokens file, the pictures and the files of the components have disjoint footprints, so nothing
that a run writes is overwritten later in the run, and a second run with the same answers finds
every file as it would write it.
-/

namespace Handoff

open Action Asset Config Design Files Remote Render Text Token

variable (client : Client) (settings : Settings) (options : SyncOptions)

lemma isFileName_tokens : IsFileName "_tokens.scss" "_tokens" "scss" :=
  ⟨by decide, over_ofString (by decide), by decide, by decide⟩

lemma hasFootprint_syncTokens (document : Document) :
    HasFootprint (· = ("_tokens.scss" : Text)) (syncTokens client settings document) := by
  have hwrite (tokens : Tokens) : HasFootprint (· = ("_tokens.scss" : Text)) (do
      let _ ← writeText (some settings.rootDir) (settings.tokensDir.child "_tokens.scss")
        (tokensSheet tokens)
      return tokens.count) := by
    rw [isFileName_tokens.child_eq]
    refine ((HasFootprint.writeText _ _ isFileName_tokens.ne_dots).bind_dropped
      (.of_steady (.pure tokens.count) fun _ => False) fun _ _ hf => hf).mono fun n => ?_
    rintro (rfl | hf)
    · rfl
    · exact hf.elim
  refine HasFootprint.after_steady (steady_fetchVariables client settings.fileKey) fun payload => ?_
  refine HasFootprint.after_steady (.ofLogged (gives_extractTokens payload)) fun tokens => ?_
  refine HasFootprint.after_steady (.ofExcept _) fun styles => ?_
  refine HasFootprint.after_steady (steady_noteStyles styles) fun _ => ?_
  refine .ite (HasFootprint.after_steady (.log ..) fun _ => ?_) (hwrite tokens)
  exact HasFootprint.after_steady (.ofExcept _) hwrite

/-! ### The parts of a run -/

/-- The file names that a run may touch. -/
def SyncFile (document : Document) (file : Text) : Prop :=
  file = "_tokens.scss" ∨ (∃ layer ∈ document.root.preorder, HasFile layer file) ∨
    ComponentFile file

lemma not_componentFile_of_hasFile {layer : Layer} {file : Text} (h : HasFile layer file) :
    ¬ ComponentFile file ∧ file ≠ "_tokens.scss" := by
  obtain ⟨format, -, hname⟩ := h
  obtain ⟨stem, hfile, hhyphen⟩ := isFileName_of_fileName hname
  have hext : format.name ≠ "scss" := by cases format <;> decide
  refine ⟨?_, ?_⟩
  · rintro (rfl | ⟨name, ext, hword, hn⟩)
    · exact hext (hfile.inj isFileName_variables).2
    · rw [← (hfile.inj hn).1] at hword
      exact absurd (hword _ hhyphen) (by decide)
  · rintro rfl
    exact hext (hfile.inj isFileName_tokens).2

lemma not_componentFile_tokens : ¬ ComponentFile "_tokens.scss" := by
  rintro (h | ⟨name, ext, hword, hn⟩)
  · exact absurd h (by decide)
  · rw [← (isFileName_tokens.inj hn).1] at hword
    exact absurd (hword (.char '_') (by decide)) (by decide)

theorem hasFootprint_syncParts {document : Document}
    (hd : SharesNoFiles document.root.preorder) :
    HasFootprint (SyncFile document) (syncParts client settings options document) := by
  have htokens : HasFootprint (· = ("_tokens.scss" : Text))
      (tokensPart client settings options document) :=
    .ite (hasFootprint_syncTokens client settings document) (.of_steady (.pure 0) _)
  have hassets : HasFootprint (fun n => ∃ layer ∈ document.root.preorder, HasFile layer n)
      (assetsPart client settings options document) :=
    .ite (Exporter.hasFootprint_exportAll _ hd) (.of_steady (.pure []) _)
  have hcomponents (assets : List Record) :
      HasFootprint ComponentFile (componentsPart settings options document assets) :=
    .ite (HasFootprint.after_steady (.ofExcept _) fun files =>
      hasFootprint_syncComponents settings document.root files options.twig)
      (.of_steady (.pure []) _)
  refine HasFootprint.mono (htokens.bind (fun tokenCount => hassets.bind (fun assets =>
    (hcomponents assets).then_steady fun components => .pure (tokenCount, assets, components))
      ?_) ?_) fun n h => h
  · rintro n ⟨layer, -, hn⟩
    exact (not_componentFile_of_hasFile hn).1
  · rintro n rfl (⟨layer, -, hn⟩ | hn)
    · exact (not_componentFile_of_hasFile hn).2 rfl
    · exact not_componentFile_tokens hn

/-! ### A second run -/

variable {client settings options}

/-- The answer to the file request from which a document was read. -/
lemma fetchDocument_eq_ok {s t : World} {document : Document}
    (h : (fetchDocument client settings).exec s = (.ok document, t)) :
    ∃ file, ((client.file settings.fileKey).exec s).1 = .ok file ∧
      Document.read file = .ok document := by
  obtain ⟨⟨⟩, u, hlog, h⟩ := exec_bind_eq_ok.1 h
  obtain ⟨file, v, hfile, h⟩ := exec_bind_eq_ok.1 h
  obtain ⟨document', v', hread, h⟩ := exec_bind_eq_ok.1 h
  cases h
  have hrequests : u.requests = s.requests := by
    obtain ⟨-, rfl⟩ := Prod.mk.inj hlog
    rfl
  have hsame := ((client.steady_file settings.fileKey).same hrequests).1
  rw [hfile] at hsame
  rw [exec_ofExcept] at hread
  exact ⟨file, hsame.symm, (Prod.mk.inj hread).1⟩

/-- **A second run writes nothing**: when a run ended well and no two candidates of its design share
a file name, a run with the same answers over what it left ends well, makes the same requests,
skips every file, changes none, and reports the same. -/
theorem sync_again {w : Workspace} {s : World} {report : SyncReport} (hw : w.Sound)
    (hfirst : (sync client settings options).exec (.start w) = (.ok report, s))
    (hfiles : ∀ file document, ((client.file settings.fileKey).exec (.start w)).1 = .ok file →
      Document.read file = .ok document → SharesNoFiles document.root.preorder) :
    ∃ report' t, (sync client settings options).exec (.start s.workspace) = (.ok report', t) ∧
      t.written = [] ∧ report'.filesWritten = 0 ∧
      report'.filesSkipped = report.filesWritten + report.filesSkipped ∧
      t.workspace = s.workspace ∧ t.requests = s.requests ∧
      report'.components = report.components ∧ report'.assets = report.assets ∧
      report'.tokenCount = report.tokenCount ∧ report'.documentName = report.documentName := by
  obtain ⟨document, u, parts, hdoc, hparts, rfl⟩ := sync_eq_ok.1 hfirst
  obtain ⟨file, hfile, hread⟩ := fetchDocument_eq_ok hdoc
  have hfoot := hasFootprint_syncParts client settings options (hfiles file document hfile hread)
  have hsteady := steady_fetchDocument client settings
  -- The document is the same, and the tree is still the one it started from.
  have hu := hsteady.sameFiles (.start w)
  obtain ⟨hdoc', hreq'⟩ := hsteady.same (s := .start w) (t := .start s.workspace) rfl
  have hv := hsteady.sameFiles (.start s.workspace)
  rcases hrun : (fetchDocument client settings).exec (.start s.workspace) with ⟨outcome, v⟩
  rw [hdoc] at hu hdoc' hreq'
  rw [hrun] at hdoc' hreq' hv
  have hsound : u.workspace.Sound := by rw [hu.workspace]; exact hw
  have hchanged := hfoot.changed hsound hparts
  obtain ⟨t, ht, hrep⟩ := hfoot.again (t := v) hsound hparts
    ⟨by rw [hv.workspace]; exact hchanged.sound, by rw [hv.workspace]; exact .refl _,
      by rw [hv.workspace]; exact .refl _ _, hreq'⟩
  have hwritten : t.written = [] := hrep.written.trans hv.written
  have hskipped : t.skipped.length = s.written.length + s.skipped.length := by
    have hcount := hrep.skipped
    rw [hu.written, hu.skipped, hv.skipped] at hcount
    simpa [World.start] using hcount
  refine ⟨reportOf document parts t, t, sync_eq_ok.2 ⟨document, v, parts, ?_, ht, rfl⟩, hwritten, ?_,
    hskipped, hrep.workspace.trans hv.workspace, hrep.requests, rfl, rfl, rfl, rfl⟩
  · exact hrun.trans (congrArg (·, v) hdoc')
  · simp [reportOf, hwritten]

/-! ### A run with two pictures -/

/-- A design file with two stars of one name. -/
def twoStars : Value :=
  .record [("document", layerValue "0:0" "Page" "DOCUMENT"
    [layerValue "1:2" "Star" "STAR" [], layerValue "1:3" "Star" "STAR" []])]

/-- A service that knows the design file and has a picture of everything. -/
def twoStarsService : Service := fun _ request =>
  if request.token.isNone then .response ⟨200, "OK", .bytes "<svg/>".toUTF8⟩
  else if request.params.isSome then .response ⟨200, "OK", .json (.record [("images",
    .record [("1:2", .text "https://pictures/2"), ("1:3", .text "https://pictures/3")])])⟩
  else .response ⟨200, "OK", .json twoStars⟩

/-- A client of that service. -/
def twoStarsClient : Client := ⟨.text "token", .int 10, twoStarsService⟩

/-- A run for the pictures alone. -/
def picturesOnly : SyncOptions := ⟨false, false, true, false⟩

lemma read_twoStars : Document.read twoStars = .ok ⟨.emptyText,
    .node (plainLayer "0:0" "Page" "DOCUMENT")
      [.node (plainLayer "1:2" "Star" "STAR") [], .node (plainLayer "1:3" "Star" "STAR") []],
    .record []⟩ := rfl

lemma sharesNoFiles_twoStars {document : Document} (h : Document.read twoStars = .ok document) :
    SharesNoFiles document.root.preorder := by
  rw [read_twoStars] at h
  cases h
  exact .of_nodup (by decide)

/-- The second run over the pictures of two stars writes nothing. -/
theorem sync_again_twoStars : ∃ report s report' t,
    (sync twoStarsClient plainSettings picturesOnly).exec (.start Workspace.empty) = (.ok report, s) ∧
    (sync twoStarsClient plainSettings picturesOnly).exec (.start s.workspace) = (.ok report', t) ∧
    t.written = [] ∧ report'.assets = report.assets := by
  have hok : ((sync twoStarsClient plainSettings picturesOnly).exec (.start Workspace.empty)).1.isOk =
      true := by decide +kernel
  rcases hrun : (sync twoStarsClient plainSettings picturesOnly).exec (.start Workspace.empty) with
    ⟨fault | report, s⟩
  · rw [hrun] at hok
    cases hok
  · have hanswer : ((twoStarsClient.file plainSettings.fileKey).exec (.start Workspace.empty)).1 =
        .ok twoStars := rfl
    obtain ⟨report', t, hagain, hwritten, -, -, -, -, -, hassets, -⟩ :=
      sync_again Workspace.sound_empty hrun fun file document hfile hread =>
        sharesNoFiles_twoStars (by cases hanswer.symm.trans hfile; exact hread)
    exact ⟨report, s, report', t, rfl, hagain, hwritten, hassets⟩

end Handoff
