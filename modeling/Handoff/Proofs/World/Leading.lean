import Handoff.Proofs.World.Steady

/-!
Relations between the states before and after an action, carried through sequences of actions.
-/

namespace Handoff.Action

variable {α β : Type}

/-- From every state the action leads to a related one. -/
def Leads (r : World → World → Prop) (action : Action α) : Prop := ∀ s, r s (action.exec s).2

/-- A relation that carries over from state to state, and that messages and requests respect. -/
structure Carries (r : World → World → Prop) : Prop where
  same : ∀ {s t}, SameFiles s t → r s t
  trans : ∀ {s t u}, r s t → r t u → r s u

namespace Leads

variable {r : World → World → Prop} {action : Action α} {next : α → Action β}

lemma of_steady (hr : Carries r) (h : Steady action) : Leads r action :=
  fun s => hr.same (h.sameFiles s)

lemma bind_of_yields (hr : Carries r) (h : Leads r action)
    (hn : ∀ a, Yields action a → Leads r (next a)) : Leads r (action >>= next) := by
  intro s
  have hs := h s
  rcases he : action.exec s with ⟨fault | a, t⟩ <;> rw [he] at hs
  · rw [exec_bind_of_error he]
    exact hs
  · rw [exec_bind_of_ok he]
    exact hr.trans hs (hn a ⟨s, t, he⟩ t)

lemma bind (hr : Carries r) (h : Leads r action) (hn : ∀ a, Leads r (next a)) :
    Leads r (action >>= next) :=
  h.bind_of_yields hr fun a _ => hn a

lemma ite {c : Prop} [Decidable c] {yes no : Action α} (h : Leads r yes) (h' : Leads r no) :
    Leads r (if c then yes else no) := by
  split
  · exact h
  · exact h'

lemma attempt (h : Leads r action) : Leads r (Action.attempt action) := fun s => h s

lemma recover (hr : Carries r) {handles : Fault → Bool} {handler : Fault → Action α}
    (h : Leads r action) (hh : ∀ fault, Leads r (handler fault)) :
    Leads r (Action.recover handles action handler) := by
  refine h.attempt.bind hr fun outcome => ?_
  rcases outcome with fault | a
  · simp only
    split
    · exact hh fault
    · exact of_steady hr (.throw fault)
  · exact of_steady hr (.pure a)

lemma mapM (hr : Carries r) {ι : Type} (act : ι → Action α) {items : List ι}
    (h : ∀ i ∈ items, Leads r (act i)) : Leads r (items.mapM act) := by
  induction items with
  | nil => exact of_steady hr (.pure [])
  | cons i rest ih =>
    rw [List.mapM_cons]
    exact (h i List.mem_cons_self).bind hr fun a =>
      (ih fun j hj => h j (List.mem_cons_of_mem _ hj)).bind hr fun as =>
        of_steady hr (.pure (a :: as))

lemma all (hr : Carries r) {ι : Type} (act : ι → Action α) {items : List ι}
    (h : ∀ i ∈ items, Leads r (act i)) : Leads r (Action.all (items.map act)) := by
  unfold Action.all
  rw [List.mapM_map]
  exact (mapM hr _ fun i hi => (h i hi).attempt).bind hr fun outcomes =>
    mapM hr _ fun outcome _ => of_steady hr (.ofExcept outcome)

end Leads

end Handoff.Action
