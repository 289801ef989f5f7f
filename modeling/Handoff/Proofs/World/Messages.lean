import Handoff.Proofs.Files.Saving
import Handoff.Proofs.World.Steady

/-!
Messages do not matter: what an action gives and leaves does not depend on what was logged before.
-/

namespace Handoff

namespace Action

variable {α β : Type}

/-- The states differ in their messages alone. -/
def Alike (s t : World) : Prop := ∃ journal, t = { s with journal }

lemma Alike.refl (s : World) : Alike s s := ⟨s.journal, rfl⟩

lemma Alike.trans {s t u : World} (h : Alike s t) (h' : Alike t u) : Alike s u := by
  obtain ⟨_, rfl⟩ := h
  obtain ⟨journal, rfl⟩ := h'
  exact ⟨journal, rfl⟩

lemma Alike.symm {s t : World} (h : Alike s t) : Alike t s := by
  obtain ⟨_, rfl⟩ := h
  exact ⟨s.journal, rfl⟩

lemma Alike.requests {s t : World} (h : Alike s t) : t.requests = s.requests := by
  obtain ⟨_, rfl⟩ := h
  rfl

lemma Alike.workspace {s t : World} (h : Alike s t) : t.workspace = s.workspace := by
  obtain ⟨_, rfl⟩ := h
  rfl

lemma alike_log (level : Level) (text : Text) (s : World) : Alike s ((log level text).exec s).2 :=
  ⟨_, rfl⟩

lemma alike_of_log {level : Level} {text : Text} {s t : World}
    (h : (log level text).exec s = (.ok (), t)) : Alike s t := by
  obtain ⟨-, rfl⟩ := Prod.mk.inj h
  exact alike_log level text s

lemma Alike.of_sameFiles {s t u v : World} (h : Alike s t) (hs : SameFiles s u) (ht : SameFiles t v)
    (hr : v.requests = u.requests) : Alike u v := by
  obtain ⟨journal, rfl⟩ := h
  refine ⟨v.journal, ?_⟩
  cases u
  cases v
  simp only [World.mk.injEq]
  exact ⟨ht.workspace.trans hs.workspace.symm, hr, trivial, ht.printed.trans hs.printed.symm,
    ht.written.trans hs.written.symm, ht.skipped.trans hs.skipped.symm⟩

/-- From states that differ in their messages alone the action gives the same and leaves states that
differ in their messages alone. -/
structure Blind (action : Action α) : Prop where
  alike : ∀ {s t}, Alike s t →
    (action.exec t).1 = (action.exec s).1 ∧ Alike (action.exec s).2 (action.exec t).2

namespace Blind

variable {action : Action α} {next : α → Action β}

lemma of_steady (h : Steady action) : Blind action where
  alike {s t} hst :=
    have hsame := h.same hst.requests
    ⟨hsame.1, hst.of_sameFiles (h.sameFiles s) (h.sameFiles t) hsame.2⟩

lemma bind (h : Blind action) (hn : ∀ a, Blind (next a)) : Blind (action >>= next) where
  alike {s t} hst := by
    obtain ⟨h1, h2⟩ := h.alike hst
    rcases hs : action.exec s with ⟨fault | a, u⟩ <;> rcases ht : action.exec t with ⟨_ | b, v⟩ <;>
      rw [hs, ht] at h1 h2 <;> cases h1
    · rw [exec_bind_of_error hs, exec_bind_of_error ht]
      exact ⟨rfl, h2⟩
    · rw [exec_bind_of_ok hs, exec_bind_of_ok ht]
      exact (hn a).alike h2

/-- A step that reads of the state nothing but the file tree. -/
lemma of_get {read : World → Action α} (hread : ∀ {s t}, t.workspace = s.workspace → read t = read s)
    (h : ∀ world, Blind (read world)) : Blind (get >>= read) where
  alike {s t} hst := by
    rw [exec_bind_of_ok (exec_get s), exec_bind_of_ok (exec_get t), hread hst.workspace]
    exact (h s).alike hst

lemma attempt (h : Blind action) : Blind (Action.attempt action) where
  alike hst := ⟨congrArg Except.ok (h.alike hst).1, (h.alike hst).2⟩

lemma recover {handles : Fault → Bool} {handler : Fault → Action α} (h : Blind action)
    (hh : ∀ fault, Blind (handler fault)) : Blind (Action.recover handles action handler) := by
  refine h.attempt.bind fun outcome => ?_
  rcases outcome with fault | a
  · simp only
    split
    · exact hh fault
    · exact of_steady (.throw fault)
  · exact of_steady (.pure a)

lemma mapM {ι : Type} (act : ι → Action α) (h : ∀ i, Blind (act i)) (items : List ι) :
    Blind (items.mapM act) := by
  induction items with
  | nil => exact of_steady (.pure [])
  | cons i rest ih =>
    rw [List.mapM_cons]
    exact (h i).bind fun a => ih.bind fun as => of_steady (.pure (a :: as))

lemma all {ι : Type} (act : ι → Action α) (h : ∀ i, Blind (act i)) (items : List ι) :
    Blind (Action.all (items.map act)) := by
  unfold Action.all
  rw [List.mapM_map]
  exact (mapM _ (fun i => (h i).attempt) items).bind fun outcomes =>
    mapM _ (fun outcome => of_steady (.ofExcept outcome)) outcomes

lemma writeFile (root : Option Files.Path) (path : Files.Path) (content : ByteArray) :
    Blind (Files.writeFile root path content) where
  alike := by
    rintro s t ⟨journal, rfl⟩
    obtain ⟨j, hs⟩ := Files.exec_writeFile root path content s
    obtain ⟨j', ht⟩ := Files.exec_writeFile root path content { s with journal }
    rw [hs, ht]
    exact ⟨rfl, j', rfl⟩

end Blind

end Action

end Handoff
