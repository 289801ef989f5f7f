import Handoff.Proofs.Design.Pruning
import Handoff.Proofs.Design.Typed
import Handoff.Proofs.Sync.Asking
import Handoff.Proofs.Sync.Repeating

/-!
Hidden layers have no influence on a synchronisation.

A run reads the design file once and works with the layers that it read. So two runs do the same when
one is given the file and the other the file without its hidden layers.
-/

namespace Handoff

open Action Asset Config Design Files Remote

variable {client client' : Client} {settings : Settings} {options : SyncOptions} {s : World}

/-- Two files that are read alike give the same document, with the same messages. -/
lemma exec_fetchDocument_congr {file file' : Value}
    (hagree : client.AgreesFrom (s.requests.length + 1) client')
    (hfile : ((client.file settings.fileKey).exec s).1 = .ok file)
    (hfile' : ((client'.file settings.fileKey).exec s).1 = .ok file')
    (hread : Document.read file' = Document.read file) :
    (fetchDocument client' settings).exec s = (fetchDocument client settings).exec s := by
  have hrequest : client'.callRequest ("/files/" ++ settings.fileKey.display) none =
      client.callRequest ("/files/" ++ settings.fileKey.display) none := by
    rw [Client.callRequest, Client.callRequest, hagree.token, hagree.timeout]
  rw [Client.file, Client.exec_callValue] at hfile hfile'
  simp only at hfile hfile'
  rw [fetchDocument, fetchDocument, exec_bind, exec_bind, exec_log]
  simp only
  rw [exec_bind, exec_bind, Client.file, Client.file, Client.exec_callValue, Client.exec_callValue,
    hfile, hfile', hrequest]
  simp only
  rw [exec_bind, exec_bind, exec_ofExcept, exec_ofExcept, hread]

/-- Two runs that are given files that are read alike, and the same answers after that, are the same
run. -/
theorem exec_sync_congr {file file' : Value}
    (hagree : client.AgreesFrom (s.requests.length + 1) client')
    (hfile : ((client.file settings.fileKey).exec s).1 = .ok file)
    (hfile' : ((client'.file settings.fileKey).exec s).1 = .ok file')
    (hread : Document.read file' = Document.read file) :
    (sync client' settings options).exec s = (sync client settings options).exec s := by
  have hfetch := exec_fetchDocument_congr hagree hfile hfile' hread
  have hrequests := requests_fetchDocument client settings s
  rw [sync_eq, sync_eq]
  rcases hdocument : (fetchDocument client settings).exec s with ⟨fault | document, t⟩ <;>
    rw [hdocument] at hfetch hrequests
  · rw [exec_bind_of_error hdocument, exec_bind_of_error hfetch]
  · rw [exec_bind_of_ok hdocument, exec_bind_of_ok hfetch, exec_bind, exec_bind]
    have hmade : s.requests.length + 1 = t.requests.length := by
      rw [hrequests, List.length_append, List.length_singleton]
    rw [((echoes_syncParts hagree document).run t (Nat.le_of_eq hmade)).1]

/-- Hidden layers, whatever they hold, have no influence: the document is the same without them, its
layers are those of the pruned tree in order and without loss, and a run that is given the pruned file
makes the same requests, leaves the same files and messages and ends with the same report or fault. -/
theorem hidden_layers_unread (file : Value) :
    Document.read (pruneFile file) = Document.read file ∧
    (∀ document, Document.read file = .ok document → ∃ fields, file = .record fields ∧
      document.root.preorder.map Layer.id = rawIds (prune (fieldOf fields "document"))) ∧
    ∀ (client client' : Client) (settings : Settings) (options : SyncOptions) (s : World),
      client.AgreesFrom (s.requests.length + 1) client' →
      ((client.file settings.fileKey).exec s).1 = .ok file →
      ((client'.file settings.fileKey).exec s).1 = .ok (pruneFile file) →
        (sync client' settings options).exec s = (sync client settings options).exec s :=
  ⟨Document.read_pruneFile file, fun _ h => Document.ids_of_read h,
    fun _ _ _ _ _ hagree hfile hfile' =>
      exec_sync_congr hagree hfile hfile' (Document.read_pruneFile file)⟩

/-! ### A design with hidden layers -/

/-- A design file with a star between hidden layers that no reader could take. -/
def starAmongHidden : Value :=
  .record [("document", layerValue "0:0" "Page" "DOCUMENT"
    [.record [("visible", .bool false), ("children", .int 5)],
      layerValue "1:2" "Star" "STAR" [.record [("visible", .null), ("style", .int 1)]],
      .record [("id", .text "1:3"), ("visible", .int 0), ("children", .list [.null])]])]

/-- A client that is given a design file first, and then pictures of everything. -/
def givenFile (file : Value) : Client where
  token := .text "token"
  timeout := .int 10
  service earlier request :=
    if earlier.isEmpty then .response ⟨200, "OK", .json file⟩
    else twoStarsService earlier request

lemma agreesFrom_givenFile (file file' : Value) :
    (givenFile file).AgreesFrom 1 (givenFile file') where
  token := rfl
  timeout := rfl
  service earlier h := by
    cases earlier with
    | nil => exact absurd h (by decide)
    | cons r rest => rfl

/-- A run over a star among hidden layers is a run over the star. -/
theorem hidden_layers_unread_star :
    pruneFile starAmongHidden = .record [("document", layerValue "0:0" "Page" "DOCUMENT"
      [layerValue "1:2" "Star" "STAR" []])] ∧
    (sync (givenFile (pruneFile starAmongHidden)) plainSettings picturesOnly).exec
        (.start Workspace.empty) =
      (sync (givenFile starAmongHidden) plainSettings picturesOnly).exec (.start Workspace.empty) ∧
    ((sync (givenFile starAmongHidden) plainSettings picturesOnly).exec
      (.start Workspace.empty)).1.isOk = true :=
  ⟨by rfl, (hidden_layers_unread starAmongHidden).2.2 _ _ _ _ _ (agreesFrom_givenFile _ _) rfl rfl,
    by decide +kernel⟩

end Handoff
