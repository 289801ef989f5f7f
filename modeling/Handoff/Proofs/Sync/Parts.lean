import Handoff.Proofs.Remote.Calls
import Handoff.Proofs.Token.Extraction
import Handoff.Sync

/-!
The parts of a synchronisation: the document, the tokens, the pictures and the components, each of
which an option may leave out.
-/

namespace Handoff

open Asset Config Design Files Remote Render Token

variable (client : Client) (settings : Settings) (options : SyncOptions)

/-- The design file of a run. -/
def fetchDocument : Action Document := do
  Action.log .info "ℹ Fetching Figma file..."
  let file ← client.file settings.fileKey
  let document ← Action.ofExcept (Document.read file)
  Action.log .info ("✓ Fetched file: " ++ document.name.display)
  return document

/-- The tokens of a run, if they are wanted. -/
def tokensPart (document : Document) : Action Nat :=
  if options.runsTokens then syncTokens client settings document else pure 0

/-- The pictures of a run, if they are wanted. -/
def assetsPart (document : Document) : Action (List Record) :=
  if options.runsAssets then
    Exporter.exportAll ⟨client, settings, some settings.rootDir⟩ document.root.preorder
  else pure []

/-- The components of a run, if they are wanted. -/
def componentsPart (document : Document) (assets : List Record) : Action (List Text) :=
  if options.runsComponents then do
    let files ← Action.ofExcept (filesOf assets)
    syncComponents settings document.root files options.twig
  else pure []

/-- What a run reports about its parts. -/
def syncParts (document : Document) : Action (Nat × List Record × List Text) := do
  let tokenCount ← tokensPart client settings options document
  let assets ← assetsPart client settings options document
  let components ← componentsPart settings options document assets
  return (tokenCount, assets, components)

/-- The report of a run that ended in a state. -/
def reportOf (document : Document) (parts : Nat × List Record × List Text) (world : World) :
    SyncReport where
  documentName := document.name
  tokenCount := parts.1
  components := parts.2.2
  assets := parts.2.1
  filesWritten := world.written.length
  filesSkipped := world.skipped.length

theorem sync_eq : sync client settings options = do
    let document ← fetchDocument client settings
    let parts ← syncParts client settings options document
    let world ← get
    return reportOf document parts world := by
  unfold sync fetchDocument syncParts tokensPart assetsPart componentsPart
  cases options.runsTokens <;> cases options.runsAssets <;> cases options.runsComponents <;>
    simp only [bind_assoc, pure_bind, Bool.false_eq_true, if_false, if_true] <;> rfl

section

variable {client settings options}

lemma sync_eq_ok {s t : World} {report : SyncReport} :
    (sync client settings options).exec s = (.ok report, t) ↔
      ∃ document u parts, (fetchDocument client settings).exec s = (.ok document, u) ∧
        (syncParts client settings options document).exec u = (.ok parts, t) ∧
        report = reportOf document parts t := by
  rw [sync_eq, Action.exec_bind_eq_ok]
  constructor
  · rintro ⟨document, u, hdoc, h⟩
    obtain ⟨parts, v, hparts, h⟩ := Action.exec_bind_eq_ok.1 h
    cases h
    exact ⟨document, u, parts, hdoc, hparts, rfl⟩
  · rintro ⟨document, u, parts, hdoc, hparts, rfl⟩
    exact ⟨document, u, hdoc, Action.exec_bind_eq_ok.2 ⟨parts, t, hparts, rfl⟩⟩

end

lemma steady_fetchDocument : Action.Steady (fetchDocument client settings) :=
  (Action.Steady.log ..).bind fun _ => (client.steady_file _).bind fun _ =>
    (Action.Steady.ofExcept _).bind fun document => (Action.Steady.log ..).bind fun _ =>
      .pure document

lemma steady_fetchVariables (fileKey : Value) : Action.Steady (fetchVariables client fileKey) := by
  refine (Action.Steady.log ..).bind fun _ => ?_
  refine Action.Steady.bind ?_ fun answer => ?_
  · refine .recover ((client.steady_designVariables _).bind fun payload => .pure (some payload)) ?_
    exact fun fault => (Action.Steady.log ..).bind fun _ => .pure none
  · cases answer with
    | none => exact .pure noVariables
    | some payload => exact (Action.Steady.ofExcept _).bind fun _ =>
        (Action.Steady.log ..).bind fun _ => .pure payload

lemma steady_noteStyles (styles : Fields) : Action.Steady (noteStyles styles) := by
  induction styles with
  | nil => exact .pure ()
  | cons first rest ih => exact (Action.Steady.ofExcept _).bind fun _ =>
      (Action.Steady.log ..).bind fun _ => ih

end Handoff
