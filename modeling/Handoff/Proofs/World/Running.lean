import Mathlib.Tactic.Common
import Handoff.World

/-!
Running actions: what an action gives in a state, and the state that it leaves.

Each combinator has an equation for its run, and sequencing a second one read backwards, which
peels the first action off a run that ended well.
-/

namespace Handoff

variable {α β : Type}

/-- A sequence of fallible steps gives a value when the first does and the second does with it. -/
lemma bind_eq_ok {ε : Type} {x : Except ε α} {f : α → Except ε β} {b : β} :
    x >>= f = .ok b ↔ ∃ a, x = .ok a ∧ f a = .ok b := by
  constructor
  · intro h
    cases x with
    | ok a => exact ⟨a, rfl, h⟩
    | error e => cases h
  · rintro ⟨a, rfl, h⟩
    exact h

/-- A sequence of fallible steps fails when the first does, or when the second does with its value. -/
lemma bind_eq_error {ε : Type} {x : Except ε α} {f : α → Except ε β} {e : ε} :
    x >>= f = .error e ↔ x = .error e ∨ ∃ a, x = .ok a ∧ f a = .error e := by
  constructor
  · intro h
    cases x with
    | ok a => exact Or.inr ⟨a, rfl, h⟩
    | error e' =>
      cases h
      exact Or.inl rfl
  · rintro (rfl | ⟨a, rfl, h⟩)
    · rfl
    · exact h

@[simp] lemma ok_bind {ε : Type} (a : α) (f : α → Except ε β) : (.ok a >>= f) = f a := rfl

@[simp] lemma error_bind {ε : Type} (e : ε) (f : α → Except ε β) :
    (.error e >>= f) = .error e := rfl

lemma eq_ok_of_toOption {ε : Type} {x : Except ε α} {a : α} (h : x.toOption = some a) : x = .ok a := by
  cases x with
  | ok b => exact congrArg Except.ok (Option.some.inj h)
  | error e => cases h

lemma exists_bind_eq_ok {ε : Type} {x : Except ε α} {f : α → Except ε β} (hx : ∃ a, x = .ok a)
    (hf : ∀ a, ∃ b, f a = .ok b) : ∃ b, x >>= f = .ok b := by
  obtain ⟨a, ha⟩ := hx
  obtain ⟨b, hb⟩ := hf a
  exact ⟨b, bind_eq_ok.2 ⟨a, ha, hb⟩⟩

/-- A fallible step that gives every item a related value gives the list one. -/
lemma exists_mapM_eq_ok {ε : Type} {f : α → Except ε β} {r : α → β → Prop} {items : List α}
    (h : ∀ a ∈ items, ∃ b, f a = .ok b ∧ r a b) :
    ∃ bs, items.mapM f = .ok bs ∧ List.Forall₂ r items bs := by
  induction items with
  | nil => exact ⟨[], rfl, .nil⟩
  | cons a rest ih =>
    obtain ⟨b, hb, hr⟩ := h a List.mem_cons_self
    obtain ⟨bs, hbs, hrs⟩ := ih fun a' ha => h a' (List.mem_cons_of_mem _ ha)
    exact ⟨b :: bs, by rw [List.mapM_cons, hb, ok_bind, hbs]; rfl, .cons hr hrs⟩

lemma mapM_eq_ok_of_forall {ε : Type} {f : α → Except ε β} {g : α → β} {items : List α}
    (h : ∀ a ∈ items, f a = .ok (g a)) : items.mapM f = .ok (items.map g) := by
  induction items with
  | nil => rfl
  | cons a rest ih =>
    rw [List.mapM_cons, h a List.mem_cons_self, ok_bind, ih fun a' ha => h a' (List.mem_cons_of_mem _ ha)]
    rfl

lemma exists_mapM_of_forall {ε : Type} {f : α → Except ε β} {items : List α}
    (h : ∀ a ∈ items, ∃ b, f a = .ok b) : ∃ bs, items.mapM f = .ok bs := by
  have hrelated : ∀ a ∈ items, ∃ b, f a = .ok b ∧ True := fun a ha =>
    (h a ha).imp fun _ hb => ⟨hb, trivial⟩
  obtain ⟨bs, hbs, -⟩ := exists_mapM_eq_ok hrelated
  exact ⟨bs, hbs⟩

/-- What is related to a list has its item there. -/
lemma exists_of_mem_forall₂ {r : α → β → Prop} {as : List α} {bs : List β} (h : List.Forall₂ r as bs)
    {b : β} (hb : b ∈ bs) : ∃ a ∈ as, r a b := by
  induction h with
  | nil => cases hb
  | cons hr _ ih =>
    rcases List.mem_cons.1 hb with rfl | hb
    · exact ⟨_, List.mem_cons_self, hr⟩
    · obtain ⟨a, ha, hr⟩ := ih hb
      exact ⟨a, List.mem_cons_of_mem _ ha, hr⟩

lemma forall₂_of_mapM {ε : Type} {f : α → Except ε β} {items : List α} {bs : List β}
    (h : items.mapM f = .ok bs) : List.Forall₂ (fun a b => f a = .ok b) items bs := by
  induction items generalizing bs with
  | nil =>
    cases h
    exact .nil
  | cons a rest ih =>
    rw [List.mapM_cons] at h
    obtain ⟨b, hb, h⟩ := bind_eq_ok.1 h
    obtain ⟨bs', hbs, h⟩ := bind_eq_ok.1 h
    cases h
    exact .cons hb (ih hbs)

/-- What the results of fallible steps have in common with the items. -/
lemma map_eq_of_mapM_eq_ok {ε γ : Type} {f : α → Except ε β} {g : β → γ} {k : α → γ}
    {items : List α} {bs : List β} (hf : ∀ a b, f a = .ok b → g b = k a)
    (h : items.mapM f = .ok bs) : bs.map g = items.map k := by
  have hall := forall₂_of_mapM h
  clear h
  induction hall with
  | nil => rfl
  | cons hb _ ih => rw [List.map_cons, List.map_cons, hf _ _ hb, ih]

namespace Action

/-- What an action gives in a state, and the state that it leaves. -/
def exec (action : Action α) (world : World) : Except Fault α × World := action.run.run world

/-- The action can end with this value. -/
def Yields (action : Action α) (a : α) : Prop := ∃ s t, action.exec s = (.ok a, t)

variable {s t : World}

@[simp] lemma exec_pure (a : α) (s : World) : (pure a : Action α).exec s = (.ok a, s) := rfl

@[simp] lemma exec_throw (fault : Fault) (s : World) :
    (throw fault : Action α).exec s = (.error fault, s) := rfl

@[simp] lemma exec_get (s : World) : (get : Action World).exec s = (.ok s, s) := rfl

@[simp] lemma exec_set (s t : World) : (set t : Action PUnit).exec s = (.ok ⟨⟩, t) := rfl

@[simp] lemma exec_modify (g : World → World) (s : World) :
    (modify g : Action PUnit).exec s = (.ok ⟨⟩, g s) := rfl

@[simp] lemma exec_log (level : Level) (text : Text) (s : World) :
    (log level text).exec s = (.ok ⟨⟩, { s with journal := s.journal ++ [⟨level, text⟩] }) := rfl

@[simp] lemma exec_ofExcept (result : Except Fault α) (s : World) :
    (ofExcept result).exec s = (result, s) := by
  cases result <;> rfl

lemma exec_ofExcept_eq_ok {result : Except Fault α} {a : α} :
    (ofExcept result).exec s = (.ok a, t) ↔ result = .ok a ∧ s = t := by
  rw [exec_ofExcept, Prod.mk.injEq]

lemma eq_ok_of_yields {result : Except Fault α} {a : α} (h : Yields (ofExcept result) a) :
    result = .ok a := by
  obtain ⟨s, t, h⟩ := h
  rw [exec_ofExcept] at h
  exact (Prod.mk.inj h).1

@[simp] lemma exec_attempt (action : Action α) (s : World) :
    (attempt action).exec s = (.ok (action.exec s).1, (action.exec s).2) := rfl

lemma exec_bind (action : Action α) (next : α → Action β) (s : World) :
    (action >>= next).exec s = match action.exec s with
      | (.ok a, t) => (next a).exec t
      | (.error fault, t) => (.error fault, t) := by
  simp only [exec, ExceptT.run_bind, StateT.run_bind]
  rcases action.run.run s with ⟨_ | _, t⟩ <;> rfl

lemma exec_bind_of_ok {action : Action α} {next : α → Action β} {a : α}
    (h : action.exec s = (.ok a, t)) : (action >>= next).exec s = (next a).exec t := by
  rw [exec_bind, h]

lemma exec_bind_of_error {action : Action α} {next : α → Action β} {fault : Fault}
    (h : action.exec s = (.error fault, t)) : (action >>= next).exec s = (.error fault, t) := by
  rw [exec_bind, h]

lemma exec_bind_eq_ok {action : Action α} {next : α → Action β} {b : β} :
    (action >>= next).exec s = (.ok b, t) ↔
      ∃ a u, action.exec s = (.ok a, u) ∧ (next a).exec u = (.ok b, t) := by
  rw [exec_bind]
  constructor
  · intro h
    rcases ha : action.exec s with ⟨_ | a, u⟩
    · simp [ha] at h
    · exact ⟨a, u, rfl, by simpa [ha] using h⟩
  · rintro ⟨a, u, ha, h⟩
    rw [ha]
    exact h

lemma exec_recover (handles : Fault → Bool) (action : Action α) (handler : Fault → Action α)
    (s : World) :
    (recover handles action handler).exec s = match action.exec s with
      | (.ok a, t) => (.ok a, t)
      | (.error fault, t) =>
        if handles fault then (handler fault).exec t else (.error fault, t) := by
  simp only [recover, exec_bind, exec_attempt]
  rcases action.exec s with ⟨fault | a, t⟩
  · simp only
    split <;> rfl
  · rfl

lemma exec_ofLogged (logged : Logged α) (s : World) :
    (ofLogged logged).exec s =
      ((logged.run.run s.journal).1, { s with journal := (logged.run.run s.journal).2 }) := by
  simp only [ofLogged, exec_bind, exec_get]
  exact exec_ofExcept _ _

@[simp] lemma exec_ite (c : Prop) [Decidable c] (yes no : Action α) (s : World) :
    (if c then yes else no).exec s = if c then yes.exec s else no.exec s := by
  split <;> rfl

/-! ### Requests -/

/-- What comes back from a request after earlier ones. -/
def answered (service : Remote.Service) (earlier : List Remote.Request) (request : Remote.Request) :
    Except Fault Remote.Response := do
  (service earlier request).response? (← request.url.asText .noSuchField)

lemma exec_request (service : Remote.Service) (r : Remote.Request) (s : World) :
    (request service r).exec s =
      (answered service s.requests r, { s with requests := s.requests ++ [r] }) := by
  simp only [request, exec_bind, exec_get, exec_set, exec_ofExcept, answered]
  cases r.url.asText .noSuchField <;> rfl

/-! ### Actions one after the other, each to its end -/

/-- The results of actions that all run to their ends, and the state after the last. -/
def results : List (Action α) → World → List (Except Fault α) × World
  | [], s => ([], s)
  | action :: rest, s =>
    let (result, t) := action.exec s
    let (others, u) := results rest t
    (result :: others, u)

@[simp] lemma results_nil (s : World) : results ([] : List (Action α)) s = ([], s) := rfl

lemma results_cons (action : Action α) (rest : List (Action α)) (s : World) :
    results (action :: rest) s =
      ((action.exec s).1 :: (results rest (action.exec s).2).1,
        (results rest (action.exec s).2).2) := rfl

lemma exec_mapM_attempt (actions : List (Action α)) (s : World) :
    (actions.mapM attempt).exec s = (.ok (results actions s).1, (results actions s).2) := by
  induction actions generalizing s with
  | nil => rfl
  | cons action rest ih =>
    rw [List.mapM_cons, exec_bind, exec_attempt]
    simp only [exec_bind, ih, exec_pure, results_cons]

lemma exec_mapM_ofExcept (outcomes : List (Except Fault α)) (s : World) :
    (outcomes.mapM ofExcept).exec s = (outcomes.mapM id, s) := by
  induction outcomes with
  | nil => rfl
  | cons first rest ih =>
    rw [List.mapM_cons, List.mapM_cons, exec_bind, exec_ofExcept]
    cases first with
    | error fault => rfl
    | ok a =>
      simp only [exec_bind, ih, id, ok_bind]
      cases rest.mapM id <;> rfl

lemma exec_all (actions : List (Action α)) (s : World) :
    (all actions).exec s = ((results actions s).1.mapM id, (results actions s).2) := by
  rw [all, exec_bind, exec_mapM_attempt]
  exact exec_mapM_ofExcept _ _

lemma mapM_id_eq_ok {outcomes : List (Except Fault α)} {as : List α} :
    outcomes.mapM id = .ok as ↔ outcomes = as.map .ok := by
  induction outcomes generalizing as with
  | nil => cases as <;> simp [pure, Except.pure]
  | cons first rest ih =>
    rw [List.mapM_cons, bind_eq_ok]
    constructor
    · rintro ⟨a, ha, h⟩
      obtain ⟨others, ho, h⟩ := bind_eq_ok.1 h
      cases h
      rw [List.map_cons, ← ih.1 ho, show first = .ok a from ha]
    · intro h
      cases as with
      | nil => simp at h
      | cons a as =>
        simp only [List.map_cons, List.cons.injEq] at h
        exact ⟨a, h.1, bind_eq_ok.2 ⟨as, ih.2 h.2, rfl⟩⟩

/-- Actions that all run to their ends give values when they do so one by one. -/
lemma exec_all_cons_eq_ok {action : Action α} {rest : List (Action α)} {as : List α} :
    (all (action :: rest)).exec s = (.ok as, t) ↔
      (do let a ← action; let others ← all rest; return a :: others : Action (List α)).exec s =
        (.ok as, t) := by
  rw [exec_all, results_cons]
  rcases ha : action.exec s with ⟨fault | a, u⟩
  · rw [exec_bind_of_error ha]
    simp only [List.mapM_cons, Prod.mk.injEq]
    constructor
    · rintro ⟨h, -⟩
      cases h
    · rintro ⟨h, -⟩
      cases h
  · rw [exec_bind_of_ok ha, exec_bind, exec_all]
    simp only [List.mapM_cons, id, ok_bind]
    rcases (results rest u).1.mapM id with fault | others
    · simp
    · exact Iff.rfl

end Action

end Handoff
