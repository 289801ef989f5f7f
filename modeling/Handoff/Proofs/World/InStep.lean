import Handoff.Proofs.Files.Spreading
import Handoff.Proofs.World.Touching

/-!
Two runs in step.

Two runs that start from different trees stay in step when they make the same requests, save at the
same paths and give the files there the same content. A save can bring them out of step only when one
of the trees refuses it. This cannot happen when both runs end in trees that are compatible.
-/

namespace Handoff

open Files Workspace

namespace Action

variable {α β : Type} {s t s' t' : World} {path : Path} {name : Text} {content : ByteArray}
  {root : Option Path} {paths : Path → Prop}

/-- Writing a file saves it, and makes no request. -/
lemma save_of_exec_writeFile {outcome : Except Fault Bool}
    (h : (writeFile root path content).exec s = (outcome, t)) :
    s.workspace.save path content = (outcome, t.workspace) ∧ t.requests = s.requests := by
  obtain ⟨journal, he⟩ := exec_writeFile root path content s
  obtain ⟨rfl, rfl⟩ := Prod.mk.inj (h.symm.trans he)
  exact ⟨rfl, rfl⟩

/-! ### Where a run saves -/

/-- From a sound tree the run saves at some paths alone, and reports what it saved. -/
def Spreads (paths : Path → Prop) (s t : World) : Prop :=
  s.workspace.Sound →
    ∃ saved, t.visited.Perm (s.visited ++ saved) ∧ Spread paths saved s.workspace t.workspace

lemma carries_spreads (paths : Path → Prop) : Carries (Spreads paths) where
  same {s t} h hs := by
    refine ⟨[], ?_, ?_⟩
    · rw [visited_of_sameFiles h, List.append_nil]
    · rw [h.workspace]
      exact .refl paths hs
  trans {s t u} h h' hs := by
    obtain ⟨saved, hvisited, hspread⟩ := h hs
    obtain ⟨saved', hvisited', hspread'⟩ := h' hspread.sound
    refine ⟨saved ++ saved', ?_, hspread.trans hspread'⟩
    rw [← List.append_assoc]
    exact hvisited'.trans (hvisited.append_right _)

/-- The tree after writing a file, and the paths that have been saved then. -/
lemma spread_of_exec_writeFile {outcome : Except Fault Bool} (paths : Path → Prop)
    (hs : s.workspace.Sound) (hp : paths path) (hn : path.EndsIn name)
    (h : (writeFile root path content).exec s = (outcome, t)) :
    t.visited.Perm (s.visited ++ if outcome.isOk then [path] else []) ∧
      Spread paths (if outcome.isOk then [path] else []) s.workspace t.workspace := by
  have hspread := Spread.of_save hs hp hn content
  rw [(save_of_exec_writeFile h).1] at hspread
  refine ⟨?_, hspread⟩
  cases outcome with
  | ok written => exact visited_of_writeFile h
  | error fault =>
    rw [visited_of_writeFile_error h]
    exact List.Perm.of_eq (List.append_nil _).symm

lemma spreads_writeFile (hp : paths path) (hn : path.EndsIn name) (root : Option Path)
    (content : ByteArray) : Leads (Spreads paths) (writeFile root path content) :=
  fun _ hs => ⟨_, spread_of_exec_writeFile paths hs hp hn rfl⟩

/-- Writing a text that ends has saved it. -/
lemma spread_of_exec_writeText {text : Text} {written : Bool} (paths : Path → Prop)
    (hs : s.workspace.Sound) (hp : paths path) (hn : path.EndsIn name)
    (h : (writeText root path text).exec s = (.ok written, t)) :
    t.visited.Perm (s.visited ++ [path]) ∧ Spread paths [path] s.workspace t.workspace := by
  obtain ⟨content, u, hcontent, hwrite⟩ := exec_bind_eq_ok.1 h
  obtain ⟨-, rfl⟩ := exec_ofExcept_eq_ok.1 hcontent
  exact spread_of_exec_writeFile paths hs hp hn hwrite

/-- What was written is there. -/
lemma entry?_of_exec_writeFile {written : Bool} (hs : s.workspace.Sound) (hn : path.EndsIn name)
    (h : (writeFile root path content).exec s = (.ok written, t)) :
    t.workspace.entry? (path.locate s.workspace.here) = some (.file content) := by
  obtain ⟨a, ps, rfl⟩ := hn.exists_eq
  have hsaved := HasFootprint.saved_of_exec hs hn.ne_dots h
  rw [← hsaved.grows.here]
  exact Stores.entry? (hsaved.stores rfl)

/-! ### Two runs -/

/-- Two runs are in step: they have made the same requests, and saved the same content at the same
paths. -/
structure InStep (s t : World) : Prop where
  sound : s.workspace.Sound ∧ t.workspace.Sound
  here : t.workspace.here = s.workspace.here
  requests : t.requests = s.requests
  visited : ∀ p, p ∈ t.visited ↔ p ∈ s.visited
  files : ∀ p ∈ s.visited, ∀ c, t.workspace.entry? (p.locate s.workspace.here) = some (.file c) ↔
    s.workspace.entry? (p.locate s.workspace.here) = some (.file c)

/-- What two runs that are in step do next keeps them in step, if it changes the files at the same
paths alone. -/
lemma InStep.spread {saved : List Path} (h : InStep s t) (hr : t'.requests = s'.requests)
    (hs : Spread (fun _ => True) saved s.workspace s'.workspace)
    (ht : Spread (fun _ => True) saved t.workspace t'.workspace)
    (hs' : s'.visited.Perm (s.visited ++ saved)) (ht' : t'.visited.Perm (t.visited ++ saved))
    (hfiles : ∀ p ∈ saved, ∀ c, t'.workspace.entry? (p.locate s.workspace.here) = some (.file c) ↔
      s'.workspace.entry? (p.locate s.workspace.here) = some (.file c)) : InStep s' t' where
  sound := ⟨hs.sound, ht.sound⟩
  here := by rw [ht.grows.here, hs.grows.here, h.here]
  requests := hr
  visited p := by rw [ht'.mem_iff, hs'.mem_iff, List.mem_append, List.mem_append, h.visited]
  files p hp c := by
    rw [hs.grows.here]
    by_cases hsaved : ∃ q ∈ saved, q.locate s.workspace.here = p.locate s.workspace.here
    · obtain ⟨q, hq, hlocate⟩ := hsaved
      rw [← hlocate]
      exact hfiles q hq c
    · simp only [not_exists, not_and] at hsaved
      have hold : p ∈ s.visited := by
        refine (List.mem_append.1 (hs'.mem_iff.1 hp)).resolve_right fun hq => ?_
        exact hsaved p hq rfl
      rw [hs.file _ c hsaved, ht.file _ c (by rw [h.here]; exact hsaved)]
      exact h.files p hold c

/-- Messages and requests keep two runs in step when the requests are the same. -/
lemma InStep.of_sameFiles (h : InStep s t) (hs : SameFiles s s') (ht : SameFiles t t')
    (hr : t'.requests = s'.requests) : InStep s' t' := by
  have hkept {u v : World} (h : SameFiles u v) : v.visited.Perm (u.visited ++ []) := by
    rw [visited_of_sameFiles h, List.append_nil]
  refine h.spread hr ?_ ?_ (hkept hs) (hkept ht) (List.forall_mem_nil _)
  · rw [hs.workspace]
    exact .refl _ h.sound.1
  · rw [ht.workspace]
    exact .refl _ h.sound.2

/-- From runs that are in step and that lead to the trees `w` and `w'`, the action gives the same
values and leaves them in step. -/
structure KeepsStep (w w' : Workspace) (action : Action α) : Prop where
  spreads : Leads (Spreads fun _ => True) action
  inStep : ∀ {s t s' t' a b}, InStep s t → action.exec s = (.ok a, s') →
    action.exec t = (.ok b, t') → s'.workspace.Grows w → t'.workspace.Grows w' →
      b = a ∧ InStep s' t'

namespace KeepsStep

variable {w w' : Workspace} {action : Action α} {next : α → Action β}

lemma grows (h : KeepsStep w w' action) {outcome : Except Fault α} (hs : s.workspace.Sound)
    (he : action.exec s = (outcome, t)) : s.workspace.Grows t.workspace := by
  obtain ⟨saved, -, hspread⟩ := h.spreads s hs
  rw [he] at hspread
  exact hspread.grows

lemma of_steady (h : Steady action) : KeepsStep w w' action where
  spreads := .of_steady (carries_spreads _) h
  inStep {s t s' t' a b} hst hs ht _ _ := by
    obtain ⟨hvalue, hrequests⟩ := h.same hst.requests
    have hsame := h.sameFiles s
    have hsame' := h.sameFiles t
    rw [hs] at hvalue hrequests hsame
    rw [ht] at hvalue hrequests hsame'
    exact ⟨Except.ok.inj hvalue, hst.of_sameFiles hsame hsame' hrequests⟩

lemma bind_of_yields (h : KeepsStep w w' action)
    (hn : ∀ a, Yields action a → KeepsStep w w' (next a)) : KeepsStep w w' (action >>= next) where
  spreads := h.spreads.bind_of_yields (carries_spreads _) fun a ha => (hn a ha).spreads
  inStep {s t s' t' a b} hst hs ht hw hw' := by
    obtain ⟨x, u, hx, hs⟩ := exec_bind_eq_ok.1 hs
    obtain ⟨y, v, hy, ht⟩ := exec_bind_eq_ok.1 ht
    have hsound {s u : World} {x : α} (hs : s.workspace.Sound) (hx : action.exec s = (.ok x, u)) :
        u.workspace.Sound := by
      obtain ⟨saved, -, hspread⟩ := h.spreads s hs
      rw [hx] at hspread
      exact hspread.sound
    have hgrows := (hn x ⟨_, _, hx⟩).grows (hsound hst.sound.1 hx) hs
    have hgrows' := (hn y ⟨_, _, hy⟩).grows (hsound hst.sound.2 hy) ht
    obtain ⟨rfl, huv⟩ := h.inStep hst hx hy (hgrows.trans hw) (hgrows'.trans hw')
    exact (hn y ⟨_, _, hx⟩).inStep huv hs ht hw hw'

lemma bind (h : KeepsStep w w' action) (hn : ∀ a, KeepsStep w w' (next a)) :
    KeepsStep w w' (action >>= next) := h.bind_of_yields fun a _ => hn a

lemma after_steady (h : Steady action) (hn : ∀ a, KeepsStep w w' (next a)) :
    KeepsStep w w' (action >>= next) := (of_steady h).bind hn

lemma ite {c : Prop} [Decidable c] {yes no : Action α} (h : KeepsStep w w' yes)
    (h' : KeepsStep w w' no) : KeepsStep w w' (if c then yes else no) := by
  split
  · exact h
  · exact h'

/-- An action may look at the current directory, which is the same in both runs. -/
lemma of_get {next : World → Action α}
    (hhere : ∀ s t, t.workspace.here = s.workspace.here → next t = next s)
    (hn : ∀ world, KeepsStep w w' (next world)) : KeepsStep w w' (get >>= next) where
  spreads s := (hn s).spreads s
  inStep {s t s' t' a b} hst hs ht hw hw' := by
    have hnext : (next t).exec t = (.ok b, t') := ht
    rw [hhere s t hst.here] at hnext
    exact (hn s).inStep hst hs hnext hw hw'

lemma all {ι : Type} (act : ι → Action α) {items : List ι}
    (h : ∀ i ∈ items, KeepsStep w w' (act i)) : KeepsStep w w' (Action.all (items.map act)) where
  spreads := .all (carries_spreads _) act fun i hi => (h i hi).spreads
  inStep := by
    induction items with
    | nil => exact (of_steady (.pure [])).inStep
    | cons i rest ih =>
      intro s t s' t' as bs hst hs ht hw hw'
      rw [List.map_cons, exec_all_cons_eq_ok] at hs ht
      have hrest : KeepsStep w w' (Action.all (rest.map act)) :=
        ⟨.all (carries_spreads _) act fun j hj => (h j (List.mem_cons_of_mem _ hj)).spreads,
          ih fun j hj => h j (List.mem_cons_of_mem _ hj)⟩
      have hseq : KeepsStep w w'
          (do let a ← act i; let others ← Action.all (rest.map act); return a :: others) :=
        (h i List.mem_cons_self).bind fun a => hrest.bind fun others => of_steady (.pure _)
      exact hseq.inStep hst hs ht hw hw'

/-! ### Writing files -/

/-- A file that was written leaves both runs with the same content. -/
lemma inStep_of_writeFile {b b' : Bool} (hst : InStep s t) (hn : path.EndsIn name)
    (hs : (writeFile root path content).exec s = (.ok b, s'))
    (ht : (writeFile root path content).exec t = (.ok b', t')) : InStep s' t' := by
  obtain ⟨hvisited, hspread⟩ := spread_of_exec_writeFile (fun _ => True) hst.sound.1 trivial hn hs
  obtain ⟨hvisited', hspread'⟩ := spread_of_exec_writeFile (fun _ => True) hst.sound.2 trivial hn ht
  refine hst.spread ?_ hspread hspread' hvisited hvisited' (List.forall_mem_singleton.2 fun c => ?_)
  · rw [(save_of_exec_writeFile hs).2, (save_of_exec_writeFile ht).2, hst.requests]
  · have hstored := entry?_of_exec_writeFile hst.sound.1 hn hs
    have hstored' := entry?_of_exec_writeFile hst.sound.2 hn ht
    rw [hst.here] at hstored'
    rw [hstored, hstored']

/-- A file that could not be written leaves both runs with the files that they had. -/
lemma inStep_of_writeFile_error {fault fault' : Fault} (hst : InStep s t) (hn : path.EndsIn name)
    (hs : (writeFile root path content).exec s = (.error fault, s'))
    (ht : (writeFile root path content).exec t = (.error fault', t')) : InStep s' t' := by
  obtain ⟨hvisited, hspread⟩ := spread_of_exec_writeFile (fun _ => True) hst.sound.1 trivial hn hs
  obtain ⟨hvisited', hspread'⟩ := spread_of_exec_writeFile (fun _ => True) hst.sound.2 trivial hn ht
  refine hst.spread ?_ hspread hspread' hvisited hvisited' (List.forall_mem_nil _)
  rw [(save_of_exec_writeFile hs).2, (save_of_exec_writeFile ht).2, hst.requests]

/-- No file is saved in one run and refused in another one that ends in a compatible tree. -/
lemma false_of_writeFile_error (hc : Compatible w w') {b : Bool} {fault : Fault}
    (hsound : s.workspace.Sound) (hsound' : t.workspace.Sound) (hn : path.EndsIn name)
    (hs : (writeFile root path content).exec s = (.ok b, s'))
    (ht : (writeFile root path content).exec t = (.error fault, t'))
    (hsystem : fault.ofSystem = true) (hw : s'.workspace.Grows w) (hw' : t'.workspace.Grows w') :
    False := by
  have hspread := (spread_of_exec_writeFile (fun _ => True) hsound trivial hn hs).2
  have hreaches := (hspread.reached path List.mem_cons_self).2
  obtain ⟨a, ps, rfl⟩ := hn.exists_eq
  have hrefuses := (HasFootprint.saved_of_exec hsound' hn.ne_dots ht).refuses rfl hsystem
  exact hc.not_refuses (hw.reaches hreaches) (hw'.refuses hrefuses)

/-- The runs stay in step over a file that is written in both. -/
lemma writeFile_bind (hn : path.EndsIn name) {next : Action β} (h : KeepsStep w w' next) :
    KeepsStep w w' (writeFile root path content >>= fun _ => next) where
  spreads := (spreads_writeFile trivial hn root content).bind (carries_spreads _) fun _ => h.spreads
  inStep {s t s' t' a b} hst hs ht hw hw' := by
    obtain ⟨x, u, hx, hs⟩ := exec_bind_eq_ok.1 hs
    obtain ⟨y, v, hy, ht⟩ := exec_bind_eq_ok.1 ht
    exact h.inStep (inStep_of_writeFile hst hn hx hy) hs ht hw hw'

lemma writeText_bind (hn : path.EndsIn name) {text : Text} {next : Action β}
    (h : KeepsStep w w' next) :
    KeepsStep w w' (writeText root path text >>= fun _ => next) := by
  unfold writeText
  rw [bind_assoc]
  exact after_steady (.ofExcept _) fun content => writeFile_bind hn h

/-- The runs stay in step over a file whose failure is recovered from. -/
theorem recover_writeFile (hc : Compatible w w') (hn : path.EndsIn name) (root : Option Path)
    (content : ByteArray) (ended failed : β) (note : Fault → Text) :
    KeepsStep w w'
      (recover Fault.ofSystem (do let _ ← writeFile root path content; return ended)
        fun fault => do log .warning (note fault); return failed) where
  spreads := by
    refine .recover (carries_spreads _) ?_ fun fault => ?_
    · exact (spreads_writeFile trivial hn root content).bind (carries_spreads _) fun _ =>
        .of_steady (carries_spreads _) (.pure ended)
    · exact .of_steady (carries_spreads _) ((Steady.log ..).bind fun _ => .pure failed)
  inStep {s t s' t' a b} hst hs ht hw hw' := by
    -- A failure that was recovered from is one of the system, and only a message follows it.
    have hfailed {u u' : World} {fault : Fault} {c : β}
        (h : (if fault.ofSystem then (do
            log .warning (note fault)
            return failed : Action β).exec u
          else (.error fault, u)) = (.ok c, u')) :
        fault.ofSystem = true ∧ c = failed ∧ u'.requests = u.requests ∧ SameFiles u u' := by
      split at h
      · cases h
        exact ⟨by assumption, rfl, rfl, rfl, rfl, rfl, rfl⟩
      · cases h
    rw [exec_recover, exec_bind] at hs ht
    rcases hx : (writeFile root path content).exec s with ⟨fault | x, u⟩ <;>
      rcases hy : (writeFile root path content).exec t with ⟨fault' | y, v⟩ <;>
      rw [hx] at hs <;> rw [hy] at ht <;> simp only at hs ht
    · obtain ⟨-, rfl, hreq, hsame⟩ := hfailed hs
      obtain ⟨-, rfl, hreq', hsame'⟩ := hfailed ht
      have huv := inStep_of_writeFile_error hst hn hx hy
      exact ⟨rfl, huv.of_sameFiles hsame hsame' (by rw [hreq, hreq', huv.requests])⟩
    · obtain ⟨hsystem, -, -, hsame⟩ := hfailed hs
      cases ht
      rw [hsame.workspace] at hw
      exact (false_of_writeFile_error hc.symm hst.sound.2 hst.sound.1 hn hy hx hsystem hw' hw).elim
    · obtain ⟨hsystem, -, -, hsame⟩ := hfailed ht
      cases hs
      rw [hsame.workspace] at hw'
      exact (false_of_writeFile_error hc hst.sound.1 hst.sound.2 hn hx hy hsystem hw hw').elim
    · cases hs
      cases ht
      exact ⟨rfl, inStep_of_writeFile hst hn hx hy⟩

end KeepsStep

end Action

end Handoff
