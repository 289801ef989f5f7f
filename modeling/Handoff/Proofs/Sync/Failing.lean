import Handoff.Proofs.Asset.Failing
import Handoff.Proofs.Component.Writing
import Handoff.Proofs.Sync.Parts
import Handoff.Proofs.Token.Typed

/-!
Which answers a run survives.

Once the design file is read, the other answers can end a run: an answer about the variables that is
neither a failure of a known kind nor a table that can be read, and an answer to an export or a
download that the export does not recover from. All other answers leave a run that ends with its
report, provided that its files can be written.
-/

namespace Handoff

open Action Asset Config Design Files Remote Text Token

/-! ### Designs and places that do not stand in the way -/

/-- A shared style says its type in a text, if it says it. -/
def IsSharedStyle (style : Value) : Prop :=
  ∃ fields, style = .record fields ∧
    ((fields.lookup ("styleType" : Text)).getD (.text "?")).IsSomeText

/-- The design has layers with typed fields and distinct ids, and shared styles. -/
structure Design.Document.WellFormed (document : Document) : Prop where
  layers : WellTypedTree document.root
  ids : (document.root.preorder.map Layer.id).Nodup
  families : ∀ layer ∈ document.root.preorder,
    (layer.typography.get "fontFamily").IsTextOrNull
  styles : ∃ fields, document.styles = .record fields ∧ ∀ e ∈ fields, IsSharedStyle e.2

section

variable (client : Client) (settings : Settings) (options : SyncOptions)

/-- The answer about the variables. -/
def variablesAnswer (s : World) : Except Fault Value :=
  ((client.designVariables settings.fileKey).exec s).1

/-- The state after the tokens. -/
def afterTokens (document : Document) (s : World) : World :=
  ((tokensPart client settings options document).exec s).2

/-- The events of the pictures of a run. -/
def pictureEvents (document : Document) (s : World) : List Event :=
  Exporter.story ⟨client, settings, some settings.rootDir⟩ document.root.preorder
    (afterTokens client settings options document s)

end

/-! ### Variables -/

variable {client : Client} {settings : Settings} {options : SyncOptions} {s t : World}

variable {document : Document}

lemma filesOf_eq_ok {records : List Record} (h : ∀ record ∈ records, record.id.IsSomeText) :
    ∃ files, filesOf records = .ok files := by
  refine exists_bind_eq_ok (exists_mapM_of_forall fun record hr => ?_) fun _ => ⟨_, rfl⟩
  obtain ⟨id, -, hkey⟩ := (h record hr).key
  rw [hkey]
  exact ⟨_, rfl⟩

/-- A design file with a component of one star. -/
def cardFile : Value :=
  .record [("document", layerValue "0:0" "Page" "DOCUMENT"
    [layerValue "1:1" "Card" "COMPONENT" [layerValue "1:2" "Star" "STAR" []]])]

/-- A service that knows the design file and the address of the star, fails for the variables, and
answers every download in one way. -/
def cardService (download : Answer) : Service := fun earlier request =>
  if request.token.isNone then download
  else if request.params.isSome then .response ⟨200, "OK", .json (.record [("images",
    .record [("1:2", .text "https://pictures/2")])])⟩
  else if earlier.isEmpty then .response ⟨200, "OK", .json cardFile⟩
  else .failure .timeout "timed out"

/-- A client of that service. -/
def cardClient (download : Answer) : Client := ⟨.text "token", .int 10, cardService download⟩

/-- A run for everything. -/
def everything : SyncOptions := ⟨false, false, false, false⟩

/-- The design that is read from the file. -/
def cardDocument : Document where
  name := .emptyText
  root := .node (plainLayer "0:0" "Page" "DOCUMENT")
    [.node (plainLayer "1:1" "Card" "COMPONENT") [.node (plainLayer "1:2" "Star" "STAR") []]]
  styles := .record []

end Handoff
