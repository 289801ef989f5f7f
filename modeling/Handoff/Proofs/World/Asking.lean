import Handoff.Proofs.Files.Saving
import Handoff.Proofs.Remote.Calls

/-!
The requests of an action, and what it does when only earlier requests are answered differently.

An action adds to the requests that were made and takes none back. Once so many have been made that
two services answer all further ones alike, a run with one service is a run with the other.
-/

namespace Handoff

open Files Remote

/-- Once this many requests have been made, two clients ask and are answered alike. -/
structure Remote.Client.AgreesFrom (n : Nat) (client client' : Client) : Prop where
  token : client'.token = client.token
  timeout : client'.timeout = client.timeout
  service : ∀ earlier, n ≤ earlier.length → client'.service earlier = client.service earlier

lemma Remote.Client.AgreesFrom.refl (n : Nat) (client : Client) : client.AgreesFrom n client :=
  ⟨rfl, rfl, fun _ _ => rfl⟩

namespace Action

variable {α β : Type} {n : Nat} {kind : Request → Prop} {s t u : World}

/-- The second state has the requests of the first, and behind them only requests of some kind. -/
def Asked (kind : Request → Prop) (s t : World) : Prop :=
  ∃ made, t.requests = s.requests ++ made ∧ ∀ r ∈ made, kind r

lemma Asked.of_eq (h : t.requests = s.requests) : Asked kind s t :=
  ⟨[], by rw [h, List.append_nil], List.forall_mem_nil _⟩

lemma Asked.trans (h : Asked kind s t) (h' : Asked kind t u) : Asked kind s u := by
  obtain ⟨made, hmade, hkind⟩ := h
  obtain ⟨made', hmade', hkind'⟩ := h'
  exact ⟨made ++ made', by rw [hmade', hmade, List.append_assoc],
    List.forall_mem_append.2 ⟨hkind, hkind'⟩⟩

lemma Asked.length_le (h : Asked kind s t) : s.requests.length ≤ t.requests.length := by
  obtain ⟨made, hmade, -⟩ := h
  rw [hmade, List.length_append]
  exact Nat.le_add_right _ _

/-- Requests of no kind are none. -/
lemma Asked.requests_eq (h : Asked (fun _ => False) s t) : t.requests = s.requests := by
  obtain ⟨made, hmade, hkind⟩ := h
  rw [hmade, List.eq_nil_iff_forall_not_mem.2 hkind, List.append_nil]

/-- Once this many requests have been made, the two actions do the same, and ask only for what is of
some kind. -/
structure Echoes (n : Nat) (kind : Request → Prop) (action action' : Action α) : Prop where
  run : ∀ s : World, n ≤ s.requests.length →
    action'.exec s = action.exec s ∧ Asked kind s (action.exec s).2

namespace Echoes

variable {action action' : Action α} {next next' : α → Action β}

lemma mono {kind' : Request → Prop} (h : Echoes n kind action action')
    (hk : ∀ r, kind r → kind' r) : Echoes n kind' action action' := by
  refine ⟨fun s hs => ?_⟩
  obtain ⟨heq, made, hmade, hkind⟩ := h.run s hs
  exact ⟨heq, made, hmade, fun r hr => hk r (hkind r hr)⟩

/-- An action that makes no request asks for nothing of any kind. -/
lemma of_silent (h : ∀ s, (action.exec s).2.requests = s.requests) : Echoes n kind action action :=
  ⟨fun s _ => ⟨rfl, .of_eq (h s)⟩⟩

lemma pure (a : α) : Echoes n kind (Pure.pure a : Action α) (Pure.pure a) := of_silent fun _ => rfl

lemma throw (fault : Fault) : Echoes n kind (throw fault : Action α) (throw fault) :=
  of_silent fun _ => rfl

lemma ofExcept (result : Except Fault α) :
    Echoes n kind (Action.ofExcept result) (Action.ofExcept result) :=
  of_silent fun s => by rw [exec_ofExcept]

lemma ofLogged (logged : Logged α) :
    Echoes n kind (Action.ofLogged logged) (Action.ofLogged logged) :=
  of_silent fun s => by rw [exec_ofLogged]

lemma log (level : Level) (text : Text) :
    Echoes n kind (Action.log level text) (Action.log level text) := of_silent fun _ => rfl

lemma get : Echoes n kind (MonadState.get : Action World) MonadState.get := of_silent fun _ => rfl

lemma writeFile (root : Option Path) (path : Path) (content : ByteArray) :
    Echoes n kind (writeFile root path content) (writeFile root path content) :=
  of_silent fun s => by
    obtain ⟨journal, h⟩ := exec_writeFile root path content s
    rw [h]

lemma bind (h : Echoes n kind action action') (hn : ∀ a, Echoes n kind (next a) (next' a)) :
    Echoes n kind (action >>= next) (action' >>= next') := by
  refine ⟨fun s hs => ?_⟩
  obtain ⟨heq, hasked⟩ := h.run s hs
  rcases he : action.exec s with ⟨fault | a, t⟩ <;> rw [he] at heq hasked
  · rw [exec_bind_of_error he, exec_bind_of_error heq]
    exact ⟨rfl, hasked⟩
  · rw [exec_bind_of_ok he, exec_bind_of_ok heq]
    obtain ⟨heq', hasked'⟩ := (hn a).run t (Nat.le_trans hs hasked.length_le)
    exact ⟨heq', hasked.trans hasked'⟩

lemma ite {c : Prop} [Decidable c] {yes yes' no no' : Action α} (h : Echoes n kind yes yes')
    (h' : Echoes n kind no no') : Echoes n kind (if c then yes else no) (if c then yes' else no') := by
  split
  · exact h
  · exact h'

lemma attempt (h : Echoes n kind action action') :
    Echoes n kind (Action.attempt action) (Action.attempt action') := by
  refine ⟨fun s hs => ?_⟩
  obtain ⟨heq, hasked⟩ := h.run s hs
  exact ⟨by rw [exec_attempt, exec_attempt, heq], hasked⟩

lemma recover {handles : Fault → Bool} {handler : Fault → Action α}
    (h : Echoes n kind action action') (hh : ∀ fault, Echoes n kind (handler fault) (handler fault)) :
    Echoes n kind (Action.recover handles action handler)
      (Action.recover handles action' handler) := by
  refine h.attempt.bind fun outcome => ?_
  rcases outcome with fault | a
  · exact ite (hh fault) (.throw fault)
  · exact .pure a

lemma mapM {ι : Type} (act act' : ι → Action α) (h : ∀ i, Echoes n kind (act i) (act' i))
    (items : List ι) : Echoes n kind (items.mapM act) (items.mapM act') := by
  induction items with
  | nil => exact .pure []
  | cons i rest ih =>
    rw [List.mapM_cons, List.mapM_cons]
    exact (h i).bind fun a => ih.bind fun as => .pure (a :: as)

lemma all {ι : Type} (act act' : ι → Action α) (h : ∀ i, Echoes n kind (act i) (act' i))
    (items : List ι) : Echoes n kind (Action.all (items.map act)) (Action.all (items.map act')) := by
  unfold Action.all
  rw [List.mapM_map, List.mapM_map]
  exact (mapM _ _ (fun i => (h i).attempt) items).bind fun outcomes =>
    mapM _ _ (fun outcome => .ofExcept outcome) outcomes

end Echoes

/-! ### The calls of the design service -/

section

variable {client client' : Client}

lemma Echoes.request (h : client.AgreesFrom n client') {r : Request} (hr : kind r) :
    Echoes n kind (Action.request client.service r) (Action.request client'.service r) := by
  refine ⟨fun s hs => ?_⟩
  rw [exec_request, exec_request, answered, answered, h.service _ hs]
  exact ⟨rfl, [r], rfl, List.forall_mem_singleton.2 hr⟩

lemma Echoes.callValue (h : client.AgreesFrom n client') {path : Text}
    {params : Option (List (Text × Value))} (hr : kind (client.callRequest path params)) :
    Echoes n kind (client.callValue path params) (client'.callValue path params) := by
  refine Echoes.bind ?_ fun response => .ofExcept response.body.value
  rw [Client.call, Client.call, h.token, h.timeout]
  exact .request h hr

lemma Echoes.imageUrls (h : client.AgreesFrom n client') {fileKey format scale : Value}
    {ids : List Value} (hr : ∀ texts, kind (client.exportRequest fileKey texts format scale)) :
    Echoes n kind (client.imageUrls fileKey ids format scale)
      (client'.imageUrls fileKey ids format scale) := by
  refine (Echoes.ofExcept _).bind fun texts => (Echoes.callValue h (hr texts)).bind fun answer =>
    (Echoes.ofExcept _).bind fun refusal => ?_
  have hrest : Echoes n kind
      (do let images ← Action.ofExcept (answer.field "images"); return images.orElse (.record []))
      (do let images ← Action.ofExcept (answer.field "images"); return images.orElse (.record [])) :=
    (Echoes.ofExcept _).bind fun images => .pure _
  exact .ite ((Echoes.throw _).bind fun _ => hrest) hrest

lemma Echoes.download (h : client.AgreesFrom n client') {url : Value}
    (hr : kind (client.downloadRequest url)) :
    Echoes n kind (client.download url) (client'.download url) := by
  refine Echoes.bind ?_ fun response => .pure response.body.content
  rw [h.timeout]
  exact .request h hr

end

end Action

end Handoff
