import Handoff.Proofs.World.Running

/-!
Steps that leave the file tree alone.

A steady action gives the same result whenever the same requests were made before it. Everything
but reading and writing files is steady; so are computations that only log.
-/

namespace Handoff

variable {α β : Type}

/-! ### Computations that only log -/

namespace Logged

/-- The computation has this result, whatever was logged before. -/
def Gives (logged : Logged α) (result : Except Fault α) : Prop :=
  ∀ journal, ∃ journal', logged.run.run journal = (result, journal')

variable {logged : Logged α} {result : Except Fault α}

lemma gives_pure (a : α) : (pure a : Logged α).Gives (.ok a) := fun journal => ⟨journal, rfl⟩

lemma gives_log (level : Level) (text : Text) : (log level text).Gives (.ok ()) :=
  fun _ => ⟨_, rfl⟩

lemma gives_ofExcept (result : Except Fault α) : (ofExcept result).Gives result := by
  intro journal
  cases result <;> exact ⟨journal, rfl⟩

lemma Gives.bind {next : α → Logged β} {f : α → Except Fault β} (h : logged.Gives result)
    (hn : ∀ a, (next a).Gives (f a)) : (logged >>= next).Gives (result >>= f) := by
  intro journal
  obtain ⟨journal', h⟩ := h journal
  simp only [ExceptT.run_bind, StateT.run_bind, h]
  cases result with
  | error fault => exact ⟨journal', rfl⟩
  | ok a => exact hn a journal'

lemma Gives.ite {c : Prop} [Decidable c] {yes no : Logged α} {r r' : Except Fault α}
    (h : yes.Gives r) (h' : no.Gives r') : (if c then yes else no).Gives (if c then r else r') := by
  split
  · exact h
  · exact h'

/-- A step that logs before a computation does not change its result. -/
lemma Gives.after_log {next : Logged β} {r : Except Fault β} (level : Level) (text : Text)
    (h : next.Gives r) : (log level text >>= fun _ => next).Gives r :=
  (gives_log level text).bind (f := fun _ => r) fun _ => h

end Logged

namespace Action

lemma exec_ofLogged_of_gives {logged : Logged α} {result : Except Fault α} (h : logged.Gives result)
    (s : World) : ∃ journal, (ofLogged logged).exec s = (result, { s with journal }) := by
  obtain ⟨journal', h⟩ := h s.journal
  exact ⟨journal', by rw [exec_ofLogged, h]⟩

lemma Yields.of_gives {logged : Logged α} {result : Except Fault α} {a : α}
    (h : Yields (ofLogged logged) a) (hg : logged.Gives result) : result = .ok a := by
  obtain ⟨s, t, h⟩ := h
  obtain ⟨journal, he⟩ := exec_ofLogged_of_gives hg s
  rw [h] at he
  exact (Prod.mk.inj he).1.symm

/-! ### Steady actions -/

/-- The second state has the same files as the first, the same ones have been written and skipped,
and the same lines have been printed. -/
structure SameFiles (s t : World) : Prop where
  workspace : t.workspace = s.workspace
  written : t.written = s.written
  skipped : t.skipped = s.skipped
  printed : t.printed = s.printed

lemma SameFiles.refl (s : World) : SameFiles s s := ⟨rfl, rfl, rfl, rfl⟩

lemma SameFiles.trans {s t u : World} (h : SameFiles s t) (h' : SameFiles t u) : SameFiles s u :=
  ⟨h'.workspace.trans h.workspace, h'.written.trans h.written, h'.skipped.trans h.skipped,
    h'.printed.trans h.printed⟩

/-- The action leaves all files alone, and its result and its requests depend on nothing but the
requests made before. -/
structure Steady (action : Action α) : Prop where
  sameFiles : ∀ s, SameFiles s (action.exec s).2
  same : ∀ {s t}, t.requests = s.requests →
    (action.exec t).1 = (action.exec s).1 ∧ (action.exec t).2.requests = (action.exec s).2.requests

namespace Steady

variable {action : Action α} {next : α → Action β}

lemma sameFiles_of_exec (h : Steady action) {s t : World} {outcome : Except Fault α}
    (he : action.exec s = (outcome, t)) : SameFiles s t := by
  have hsame := h.sameFiles s
  rwa [he] at hsame

lemma pure (a : α) : Steady (Pure.pure a : Action α) := ⟨.refl, fun h => ⟨rfl, h⟩⟩

lemma throw (fault : Fault) : Steady (throw fault : Action α) := ⟨.refl, fun h => ⟨rfl, h⟩⟩

lemma ofExcept (result : Except Fault α) : Steady (Action.ofExcept result) := by
  cases result with
  | ok a => exact .pure a
  | error fault => exact .throw fault

lemma log (level : Level) (text : Text) : Steady (Action.log level text) :=
  ⟨fun _ => ⟨rfl, rfl, rfl, rfl⟩, fun h => ⟨rfl, h⟩⟩

lemma ofLogged {logged : Logged α} {result : Except Fault α} (h : logged.Gives result) :
    Steady (Action.ofLogged logged) where
  sameFiles s := by
    obtain ⟨journal, h⟩ := exec_ofLogged_of_gives h s
    rw [h]
    exact ⟨rfl, rfl, rfl, rfl⟩
  same {s t} hr := by
    obtain ⟨_, hs⟩ := exec_ofLogged_of_gives h s
    obtain ⟨_, ht⟩ := exec_ofLogged_of_gives h t
    rw [hs, ht]
    exact ⟨rfl, hr⟩

lemma request (service : Remote.Service) (r : Remote.Request) :
    Steady (Action.request service r) where
  sameFiles s := by
    rw [exec_request]
    exact ⟨rfl, rfl, rfl, rfl⟩
  same {s t} hr := by
    rw [exec_request, exec_request, hr]
    exact ⟨rfl, rfl⟩

lemma bind (h : Steady action) (hn : ∀ a, Steady (next a)) : Steady (action >>= next) where
  sameFiles s := by
    have hs := h.sameFiles s
    rcases hr : action.exec s with ⟨fault | a, u⟩
    · rw [exec_bind_of_error hr]
      rwa [hr] at hs
    · rw [exec_bind_of_ok hr]
      rw [hr] at hs
      exact hs.trans ((hn a).sameFiles u)
  same {s t} hr := by
    obtain ⟨h1, h2⟩ := h.same hr
    rcases hs : action.exec s with ⟨fault | a, u⟩ <;> rcases ht : action.exec t with ⟨_ | b, v⟩ <;>
      rw [hs, ht] at h1 h2 <;> cases h1
    · rw [exec_bind_of_error hs, exec_bind_of_error ht]
      exact ⟨rfl, h2⟩
    · rw [exec_bind_of_ok hs, exec_bind_of_ok ht]
      exact (hn a).same h2

lemma attempt (h : Steady action) : Steady (Action.attempt action) where
  sameFiles s := h.sameFiles s
  same hr := ⟨congrArg Except.ok (h.same hr).1, (h.same hr).2⟩

lemma recover {handles : Fault → Bool} {handler : Fault → Action α} (h : Steady action)
    (hh : ∀ fault, Steady (handler fault)) : Steady (Action.recover handles action handler) := by
  refine h.attempt.bind fun outcome => ?_
  rcases outcome with fault | a
  · simp only
    split
    · exact hh fault
    · exact .throw fault
  · exact .pure a

lemma ite {c : Prop} [Decidable c] {yes no : Action α} (h : Steady yes) (h' : Steady no) :
    Steady (if c then yes else no) := by
  split
  · exact h
  · exact h'

end Steady

end Action

end Handoff
