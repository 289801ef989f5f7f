import Handoff.Proofs.Asset.Asking
import Handoff.Proofs.Sync.Parts

/-!
The requests of a synchronisation: the design file, then the variables if tokens are wanted, then the
pictures if they are. The parts that write components ask for nothing.
-/

namespace Handoff

open Action Asset Config Design Files Naming Remote Render Token

variable {client client' : Client} {settings : Settings} {options : SyncOptions} {n : Nat}
  {kind : Request → Prop} {s t : World}

/-! ### The parts -/

/-- The request for the design file. -/
def fileRequest (client : Client) (settings : Settings) : Request :=
  client.callRequest ("/files/" ++ settings.fileKey.display) none

/-- The request for the design variables. -/
def variablesRequest (client : Client) (settings : Settings) : Request :=
  client.callRequest ("/files/" ++ settings.fileKey.display ++ "/variables/local") none

/-- Asking for the document is one request, whatever is answered. -/
lemma requests_fetchDocument (client : Client) (settings : Settings) (s : World) :
    ((fetchDocument client settings).exec s).2.requests =
      s.requests ++ [fileRequest client settings] := by
  rw [fetchDocument, exec_bind, exec_log]
  simp only
  rw [exec_bind, Client.file, Client.exec_callValue]
  simp only
  rcases (answered client.service s.requests _).bind _ with fault | file
  · rfl
  · simp only [exec_bind, exec_ofExcept]
    rcases Document.read file with fault | document <;> rfl

lemma echoes_writeText (root : Option Path) (path : Path) (text : Text) :
    Echoes n kind (writeText root path text) (writeText root path text) :=
  (Echoes.ofExcept _).bind fun content => .writeFile root path content

lemma echoes_noteStyles (styles : Fields) : Echoes n kind (noteStyles styles) (noteStyles styles) := by
  induction styles with
  | nil => exact .pure ()
  | cons first rest ih => exact (Echoes.ofExcept _).bind fun note => (Echoes.log ..).bind fun _ => ih

/-- Asking for the variables, until the answer is there or the failure has been reported. -/
def askVariables (client : Client) (settings : Settings) : Action (Option Value) := do
  Action.log .info "ℹ Fetching design variables..."
  let ask : Action (Option Value) := do return some (← client.designVariables settings.fileKey)
  Action.recover (fun fault => fault.ofRequest || fault.ofContent) ask fun fault => do
    Action.log .warning ("⚠ Could not fetch variables: " ++ fault.message)
    return none

/-- What is done with the answer about the variables. -/
def takeVariables : Option Value → Action Value
  | none => return noVariables
  | some payload => do
    let size ← Action.ofExcept (do sizeOfTable (← variablesOf payload))
    Action.log .info ("✓ Fetched " ++ toString size ++ " variables")
    return payload

lemma fetchVariables_eq (client : Client) (settings : Settings) :
    fetchVariables client settings.fileKey = askVariables client settings >>= takeVariables := by
  rw [fetchVariables, askVariables, bind_assoc]
  refine bind_congr fun _ => bind_congr fun answer => ?_
  cases answer <;> rfl

lemma echoes_askVariables (h : client.AgreesFrom n client') :
    Echoes n (· = variablesRequest client settings) (askVariables client settings)
      (askVariables client' settings) := by
  have hcall : Echoes n (· = variablesRequest client settings)
      (client.designVariables settings.fileKey) (client'.designVariables settings.fileKey) :=
    Echoes.callValue h rfl
  refine (Echoes.log ..).bind fun _ => .recover ?_ fun fault => ?_
  · exact hcall.bind fun payload => .pure (some payload)
  · exact (Echoes.log ..).bind fun _ => .pure none

/-- Asking for the variables is one request, whatever is answered. -/
lemma requests_askVariables (client : Client) (settings : Settings) (s : World) :
    ((askVariables client settings).exec s).2.requests =
      s.requests ++ [variablesRequest client settings] := by
  rw [askVariables, exec_bind, exec_log]
  simp only
  rw [exec_recover, exec_bind, Client.designVariables, Client.exec_callValue]
  simp only
  rcases (answered client.service s.requests _).bind _ with fault | payload
  · simp only
    split <;> rfl
  · rfl

lemma echoes_takeVariables (answer : Option Value) :
    Echoes n kind (takeVariables answer) (takeVariables answer) := by
  cases answer with
  | none => exact .pure noVariables
  | some payload =>
    exact (Echoes.ofExcept _).bind fun size => (Echoes.log ..).bind fun _ => .pure payload

/-- What is done for the tokens once the variables are there. -/
def writeTokens (settings : Settings) (document : Document) (payload : Value) : Action Nat := do
  let fromVariables ← Action.ofLogged (extractTokens payload)
  noteStyles (← Action.ofExcept document.styles.fields)
  let tokens ← if fromVariables.isEmpty then do
      Action.log .info "ℹ No variables found, collecting tokens from the document tree"
      Action.ofExcept (harvest document.root.preorder)
    else pure fromVariables
  let _ ← writeText (some settings.rootDir) (settings.tokensDir.child "_tokens.scss")
    (tokensSheet tokens)
  return tokens.count

lemma echoes_writeTokens (document : Document) (payload : Value) :
    Echoes n kind (writeTokens settings document payload) (writeTokens settings document payload) := by
  refine (Echoes.ofLogged _).bind fun tokens => (Echoes.ofExcept _).bind fun styles =>
    (echoes_noteStyles styles).bind fun _ => ?_
  have hwrite (tokens : Tokens) : Echoes n kind
      (do let _ ← writeText (some settings.rootDir) (settings.tokensDir.child "_tokens.scss")
            (tokensSheet tokens)
          return tokens.count)
      (do let _ ← writeText (some settings.rootDir) (settings.tokensDir.child "_tokens.scss")
            (tokensSheet tokens)
          return tokens.count) :=
    (echoes_writeText ..).bind fun _ => .pure tokens.count
  exact .ite ((Echoes.log ..).bind fun _ => (Echoes.ofExcept _).bind hwrite) (hwrite tokens)

lemma syncTokens_eq (client : Client) (settings : Settings) (document : Document) :
    syncTokens client settings document =
      askVariables client settings >>= fun answer =>
        takeVariables answer >>= writeTokens settings document := by
  rw [syncTokens, fetchVariables_eq, bind_assoc]
  rfl

lemma echoes_syncTokens (h : client.AgreesFrom n client') (document : Document) :
    Echoes n (· = variablesRequest client settings) (syncTokens client settings document)
      (syncTokens client' settings document) := by
  rw [syncTokens_eq, syncTokens_eq]
  exact (echoes_askVariables h).bind fun answer => (echoes_takeVariables answer).bind fun payload =>
    echoes_writeTokens document payload

lemma echoes_writeComponents (files : FileMap) (withTwig : Bool) (names : ComponentNames)
    (roles : RoleMemo) (trees : List LayerTree) :
    Echoes n kind (writeComponents settings files withTwig names roles trees)
      (writeComponents settings files withTwig names roles trees) := by
  have hwrite (artifacts : ArtifactSet) :
      Echoes n kind (writeArtifacts settings artifacts) (writeArtifacts settings artifacts) := by
    refine (echoes_writeText ..).bind fun _ => (echoes_writeText ..).bind fun _ =>
      (echoes_writeText ..).bind fun _ => ?_
    cases artifacts.twig with
    | none => exact .pure _
    | some twig => exact (echoes_writeText ..).bind fun _ => .pure _
  induction trees generalizing names roles with
  | nil => exact .pure []
  | cons tree rest ih =>
    exact (Echoes.ofExcept _).bind fun (_, names) => (Echoes.ofExcept _).bind fun (_, roles) =>
      (Echoes.log ..).bind fun _ => Echoes.get.bind fun _ => (Echoes.ofExcept _).bind fun built =>
        (hwrite built).bind fun _ => (Echoes.log ..).bind fun _ => (ih names roles).bind fun others =>
          .pure _

lemma echoes_syncComponents (root : LayerTree) (files : FileMap) (withTwig : Bool) :
    Echoes n kind (syncComponents settings root files withTwig)
      (syncComponents settings root files withTwig) := by
  refine (Echoes.log ..).bind fun _ => (Echoes.ofExcept _).bind fun trees => ?_
  refine .ite ((Echoes.log ..).bind fun _ => .pure []) ?_
  exact (Echoes.log ..).bind fun _ => Echoes.get.bind fun _ => (echoes_writeText ..).bind fun _ =>
    echoes_writeComponents files withTwig _ _ trees

lemma echoes_tokensPart (h : client.AgreesFrom n client') (document : Document) :
    Echoes n (fun r => options.runsTokens = true ∧ r = variablesRequest client settings)
      (tokensPart client settings options document) (tokensPart client' settings options document) := by
  unfold tokensPart
  cases options.runsTokens with
  | false => exact .pure 0
  | true => exact (echoes_syncTokens h document).mono fun r hr => ⟨rfl, hr⟩

lemma echoes_assetsPart (h : client.AgreesFrom n client') (document : Document) :
    Echoes n (fun r => options.runsAssets = true ∧ IsPictureRequest client settings.fileKey r)
      (assetsPart client settings options document) (assetsPart client' settings options document) := by
  unfold assetsPart
  cases options.runsAssets with
  | false => exact .pure []
  | true => exact (Exporter.echoes_exportAll h _).mono fun r hr => ⟨rfl, hr⟩

lemma echoes_componentsPart (document : Document) (assets : List Record) :
    Echoes n kind (componentsPart settings options document assets)
      (componentsPart settings options document assets) := by
  unfold componentsPart
  cases options.runsComponents with
  | false => exact .pure []
  | true => exact (Echoes.ofExcept _).bind fun files => echoes_syncComponents _ files _

/-- What a run asks for once it has the document. -/
theorem echoes_syncParts (h : client.AgreesFrom n client') (document : Document) :
    Echoes n
      (fun r => (options.runsTokens = true ∧ r = variablesRequest client settings) ∨
        options.runsAssets = true ∧ IsPictureRequest client settings.fileKey r)
      (syncParts client settings options document) (syncParts client' settings options document) :=
  ((echoes_tokensPart h document).mono fun _ hr => .inl hr).bind fun count =>
    ((echoes_assetsPart h document).mono fun _ hr => .inr hr).bind fun assets =>
      (echoes_componentsPart document assets).bind fun components =>
        .pure (count, assets, components)

end Handoff
