import Handoff.Proofs.World.Tallying

/-!
Running an action again over what it left.

An action has a footprint when, in a run that ends well, it changes no file outside certain names,
reports each file that it saves once, and a later run over the resulting files ends the same way,
without changing anything. Actions with disjoint footprints can be run one after the other; the whole
then has the joint footprint.
-/

namespace Handoff

open Files Workspace

namespace Action

variable {α β : Type}

/-- The files with certain names have the content that they had. -/
def KeepsFiles (names : Text → Prop) (w w' : Workspace) : Prop :=
  ∀ l n c, l.getLast? = some n → names n → w.entry? l = some (.file c) → w'.entry? l = some (.file c)

lemma KeepsFiles.refl (names : Text → Prop) (w : Workspace) : KeepsFiles names w w :=
  fun _ _ _ _ _ h => h

lemma KeepsFiles.mono {names names' : Text → Prop} {w w' : Workspace} (h : KeepsFiles names w w')
    (hn : ∀ n, names' n → names n) : KeepsFiles names' w w' :=
  fun l n c hl hnn => h l n c hl (hn n hnn)

/-- What happens outside certain names keeps the files with other names. -/
lemma KeepsFiles.after {names others : Text → Prop} {w w' w'' : Workspace}
    (hs : SameFilesBut others w w') (hd : ∀ n, names n → ¬ others n)
    (h : KeepsFiles names w' w'') : KeepsFiles names w w'' := by
  intro l n c hl hn he
  refine h l n c hl hn ((hs l c ?_).2 he)
  intro m hm
  rw [hl] at hm
  cases hm
  exact hd n hn

/-- What a run that ended well may have changed: the tree has grown, and files outside certain names
are the same. -/
structure Changed (names : Text → Prop) (w w' : Workspace) : Prop where
  sound : w'.Sound
  grows : w.Grows w'
  sameFiles : SameFilesBut names w w'

lemma Changed.refl {names : Text → Prop} {w : Workspace} (h : w.Sound) : Changed names w w :=
  ⟨h, .refl w, .refl names w⟩

lemma Changed.trans {names : Text → Prop} {w w' w'' : Workspace} (h : Changed names w w')
    (h' : Changed names w' w'') : Changed names w w'' :=
  ⟨h'.sound, h.grows.trans h'.grows, h.sameFiles.trans h'.sameFiles⟩

lemma Changed.mono {names names' : Text → Prop} {w w' : Workspace} (h : Changed names w w')
    (hn : ∀ n, names n → names' n) : Changed names' w w' :=
  ⟨h.sound, h.grows, h.sameFiles.mono hn⟩

/-- A state from which what led from `s` to `s'` can be run again: the tree is that of `s'` or a
later one with the same files of certain names, and the requests are those made before `s`. -/
structure Ready (names : Text → Prop) (s s' t : World) : Prop where
  sound : t.workspace.Sound
  grows : s'.workspace.Grows t.workspace
  keeps : KeepsFiles names s'.workspace t.workspace
  requests : t.requests = s.requests

/-- How running it again ends: with the requests of the first run, no file changed or written, and
as many files skipped as the first run wrote and skipped. -/
structure Repeated (s s' t t' : World) : Prop where
  workspace : t'.workspace = t.workspace
  requests : t'.requests = s'.requests
  written : t'.written = t.written
  skipped : t'.skipped.length + (s.written.length + s.skipped.length) =
    t.skipped.length + (s'.written.length + s'.skipped.length)

/-- A run of the action that ends well changes only files with certain names, and reports them; running
it again over what it left gives the same value and changes nothing. -/
structure HasFootprint (names : Text → Prop) (action : Action α) : Prop where
  changed : ∀ {s s' a}, s.workspace.Sound → action.exec s = (.ok a, s') →
    Changed names s.workspace s'.workspace
  again : ∀ {s s' t a}, s.workspace.Sound → action.exec s = (.ok a, s') → Ready names s s' t →
    ∃ t', action.exec t = (.ok a, t') ∧ Repeated s s' t t'
  reported : ∀ {s s' a}, s.workspace.Sound → action.exec s = (.ok a, s') →
    ∃ written skipped, Tally names written skipped s s'

namespace HasFootprint

variable {names names' : Text → Prop} {action : Action α} {next : α → Action β}

lemma mono (h : HasFootprint names action) (hn : ∀ n, names n → names' n) :
    HasFootprint names' action where
  changed hs he := (h.changed hs he).mono hn
  again hs he hr := h.again hs he ⟨hr.sound, hr.grows, hr.keeps.mono hn, hr.requests⟩
  reported hs he := by
    obtain ⟨written, skipped, htally⟩ := h.reported hs he
    exact ⟨written, skipped, htally.mono hn⟩

/-- A steady action has every footprint. -/
lemma of_steady (h : Steady action) (names : Text → Prop) : HasFootprint names action where
  changed {s s' a} hs he := by
    have hw := (h.sameFiles s).workspace
    rw [he] at hw
    rw [hw]
    exact .refl hs
  again {s s' t a} hs he hr := by
    have hf := h.sameFiles s
    have hf' := h.sameFiles t
    obtain ⟨h1, h2⟩ := h.same hr.requests
    rw [he] at hf h1 h2
    refine ⟨(action.exec t).2, Prod.ext h1 rfl, hf'.workspace, h2, hf'.written, ?_⟩
    rw [hf'.skipped, hf.written, hf.skipped]
  reported {s s' a} hs he := ⟨[], [], .of_sameFiles hs (h.sameFiles_of_exec he)⟩

/-- Actions with disjoint footprints, one after the other. The footprint of the second may depend on
what values the first can give. -/
theorem bind_of_yields (h : HasFootprint names action)
    (hn : ∀ a, Yields action a → HasFootprint names' (next a))
    (hd : ∀ n, names n → ¬ names' n) :
    HasFootprint (fun n => names n ∨ names' n) (action >>= next) where
  changed {s s' b} hs he := by
    obtain ⟨a, u, ha, hb⟩ := exec_bind_eq_ok.1 he
    have hc := h.changed hs ha
    exact (hc.mono fun _ => Or.inl).trans (((hn a ⟨_, _, ha⟩).changed hc.sound hb).mono fun _ => Or.inr)
  again {s s' t b} hs he hr := by
    obtain ⟨a, u, ha, hb⟩ := exec_bind_eq_ok.1 he
    have hc := h.changed hs ha
    have hc' := (hn a ⟨_, _, ha⟩).changed hc.sound hb
    obtain ⟨t', hta, hrep⟩ := h.again hs ha
      ⟨hr.sound, hc'.grows.trans hr.grows,
        .after hc'.sameFiles hd (hr.keeps.mono fun _ => Or.inl), hr.requests⟩
    obtain ⟨t'', htb, hrep'⟩ := (hn a ⟨_, _, ha⟩).again hc.sound hb
      ⟨by rw [hrep.workspace]; exact hr.sound, by rw [hrep.workspace]; exact hr.grows,
        by rw [hrep.workspace]; exact hr.keeps.mono fun _ => Or.inr, hrep.requests⟩
    refine ⟨t'', exec_bind_eq_ok.2 ⟨a, t', hta, htb⟩, hrep'.workspace.trans hrep.workspace,
      hrep'.requests, hrep'.written.trans hrep.written, ?_⟩
    have h1 := hrep.skipped
    have h2 := hrep'.skipped
    omega
  reported {s s' b} hs he := by
    obtain ⟨a, u, ha, hb⟩ := exec_bind_eq_ok.1 he
    obtain ⟨written, skipped, htally⟩ := h.reported hs ha
    obtain ⟨written', skipped', htally'⟩ := (hn a ⟨_, _, ha⟩).reported htally.spread.sound hb
    exact ⟨_, _, htally.trans htally' hd⟩

lemma bind (h : HasFootprint names action) (hn : ∀ a, HasFootprint names' (next a))
    (hd : ∀ n, names n → ¬ names' n) :
    HasFootprint (fun n => names n ∨ names' n) (action >>= next) :=
  h.bind_of_yields (fun a _ => hn a) hd

/-- A steady action before another one adds nothing to the footprint. -/
lemma after_steady_of_yields (h : Steady action)
    (hn : ∀ a, Yields action a → HasFootprint names (next a)) :
    HasFootprint names (action >>= next) :=
  ((of_steady h fun _ => False).bind_of_yields hn fun _ hf => hf.elim).mono fun _ => by simp

lemma after_steady (h : Steady action) (hn : ∀ a, HasFootprint names (next a)) :
    HasFootprint names (action >>= next) :=
  after_steady_of_yields h fun a _ => hn a

/-- A steady action after another one adds nothing to the footprint. -/
lemma then_steady (h : HasFootprint names action) (hn : ∀ a, Steady (next a)) :
    HasFootprint names (action >>= next) :=
  (h.bind (fun a => of_steady (hn a) fun _ => False) fun _ _ hf => hf).mono fun _ => by simp

lemma ite {c : Prop} [Decidable c] {yes no : Action α} (h : HasFootprint names yes)
    (h' : HasFootprint names no) : HasFootprint names (if c then yes else no) := by
  split
  · exact h
  · exact h'

/-- An action may look at the current directory, which a run does not change. -/
lemma of_get {next : World → Action α}
    (hhere : ∀ s t, t.workspace.here = s.workspace.here → next t = next s)
    (hn : ∀ world, HasFootprint names (next world)) : HasFootprint names (get >>= next) where
  changed {s s' a} hs he := (hn s).changed hs he
  again {s s' t a} hs he hr := by
    have hsame : next t = next s :=
      hhere s t (hr.grows.here.trans ((hn s).changed hs he).grows.here)
    obtain ⟨t', ht, hrep⟩ := (hn s).again hs he hr
    exact ⟨t', by rw [exec_bind, exec_get]; simpa only [hsame] using ht, hrep⟩
  reported {s s' a} hs he := (hn s).reported hs he

/-- An action whose value is not used, before another one. -/
lemma bind_dropped {next : Action β} (h : HasFootprint names (action >>= fun _ => pure ()))
    (hn : HasFootprint names' next) (hd : ∀ n, names n → ¬ names' n) :
    HasFootprint (fun n => names n ∨ names' n) (action >>= fun _ => next) := by
  have hseq := h.bind (fun _ => hn) hd
  rwa [bind_assoc] at hseq

/-- Only the runs that end well matter. -/
lemma congr_ok {action' : Action α}
    (he : ∀ s s' a, action'.exec s = (.ok a, s') ↔ action.exec s = (.ok a, s'))
    (h : HasFootprint names action) : HasFootprint names action' where
  changed hs ha := h.changed hs ((he _ _ _).1 ha)
  again hs ha hr := by
    obtain ⟨t', ht, hrep⟩ := h.again hs ((he _ _ _).1 ha) hr
    exact ⟨t', (he _ _ _).2 ht, hrep⟩
  reported hs ha := h.reported hs ((he _ _ _).1 ha)

/-- Actions that all run to their ends, none of which touches the files of another. -/
theorem all {ι : Type} {act : ι → Action α} (of : ι → Text → Prop) {items : List ι}
    (h : ∀ i ∈ items, HasFootprint (of i) (act i))
    (hd : items.Pairwise fun i j => ∀ n, of i n → ¬ of j n) :
    HasFootprint (fun n => ∃ i ∈ items, of i n) (Action.all (items.map act)) := by
  induction items with
  | nil => exact of_steady (.pure []) _
  | cons i items ih =>
    rw [List.pairwise_cons] at hd
    have hrest := ih (fun j hj => h j (List.mem_cons_of_mem _ hj)) hd.2
    have hseq := (h i List.mem_cons_self).bind
      (fun a => hrest.then_steady fun others => .pure (a :: others))
      (by rintro n hn ⟨j, hj, hjn⟩; exact hd.1 j hj n hn hjn)
    refine congr_ok (fun _ _ _ => exec_all_cons_eq_ok) (hseq.mono ?_)
    rintro n (hn | ⟨j, hj, hjn⟩)
    · exact ⟨i, List.mem_cons_self, hn⟩
    · exact ⟨j, List.mem_cons_of_mem _ hj, hjn⟩

/-! ### Writing files -/

variable {a : Anchor} {ps : List Text} {name : Text}

/-- Saving a file that the tree stores already is a skip. -/
lemma exec_writeFile_of_stores (root : Option Path) {path : Path} {content : ByteArray} {t : World}
    (h : t.workspace.Stores path content) :
    ∃ journal, (writeFile root path content).exec t =
      (.ok false, { t with journal, skipped := t.skipped ++ [path] }) := by
  obtain ⟨journal, he⟩ := exec_writeFile root path content t
  rw [save_of_stores h] at he
  exact ⟨journal, he⟩

lemma saved_of_exec {root : Option Path} {content : ByteArray} {s s' : World}
    {outcome : Except Fault Bool} (hs : s.workspace.Sound) (hn : name ≠ "..")
    (he : (writeFile root ⟨a, ps ++ [name]⟩ content).exec s = (outcome, s')) :
    Saved s.workspace ⟨a, ps ++ [name]⟩ name content outcome s'.workspace := by
  obtain ⟨journal, hw⟩ := exec_writeFile root ⟨a, ps ++ [name]⟩ content s
  rw [he] at hw
  obtain ⟨rfl, rfl⟩ := Prod.mk.inj hw
  exact save_saved hs hn

/-- The bookkeeping of a file that was written or skipped. -/
lemma length_of_exec {root : Option Path} {path : Path} {content : ByteArray} {s s' : World}
    {outcome : Except Fault Bool} (he : (writeFile root path content).exec s = (outcome, s')) :
    s'.requests = s.requests ∧ s'.written.length + s'.skipped.length =
      s.written.length + s.skipped.length + (if outcome.isOk then 1 else 0) := by
  obtain ⟨journal, hw⟩ := exec_writeFile root path content s
  rw [he] at hw
  obtain ⟨rfl, rfl⟩ := Prod.mk.inj hw
  refine ⟨rfl, ?_⟩
  rcases (s.workspace.save path content).1 with fault | _ | _
  · rfl
  · exact (congrArg _ List.length_append).trans (Nat.add_assoc ..).symm
  · simp only [List.length_append, List.length_singleton, Except.isOk, Except.toBool, if_true]
    omega

/-- Writing a file touches the files of its name alone. -/
theorem writeFile (root : Option Path) (content : ByteArray) (hn : name ≠ "..") :
    HasFootprint (· = name)
      (Files.writeFile root ⟨a, ps ++ [name]⟩ content >>= fun _ => pure ()) where
  changed {s s' u} hs he := by
    obtain ⟨b, s'', hw, hp⟩ := exec_bind_eq_ok.1 he
    cases hp
    have hsaved := saved_of_exec hs hn hw
    exact ⟨hsaved.sound, hsaved.grows, hsaved.sameFiles⟩
  again {s s' t u} hs he hr := by
    obtain ⟨b, s'', hw, hp⟩ := exec_bind_eq_ok.1 he
    cases hp
    have hsaved := saved_of_exec hs hn hw
    obtain ⟨hreq, hlen⟩ := length_of_exec hw
    have hstores : t.workspace.Stores ⟨a, ps ++ [name]⟩ content :=
      (hsaved.stores rfl).keep hn hr.grows fun l c hl => hr.keeps l name c hl rfl
    obtain ⟨journal, ht⟩ := exec_writeFile_of_stores root hstores
    refine ⟨_, exec_bind_eq_ok.2 ⟨_, _, ht, rfl⟩, rfl, ?_, rfl, ?_⟩
    · rw [hreq]
      exact hr.requests
    · simp only [List.length_append, List.length_singleton, Except.isOk, Except.toBool,
        if_true] at hlen ⊢
      omega
  reported {s s' u} hs he := by
    obtain ⟨b, s'', hw, hp⟩ := exec_bind_eq_ok.1 he
    cases hp
    exact Tally.of_exec_writeFile hs (Path.endsIn_concat hn) hw

/-- Writing a text touches the files of its name alone. -/
lemma writeText (root : Option Path) (text : Text) (hn : name ≠ "..") :
    HasFootprint (· = name)
      (Files.writeText root ⟨a, ps ++ [name]⟩ text >>= fun _ => pure ()) := by
  unfold Files.writeText
  rw [bind_assoc]
  exact after_steady (.ofExcept _) fun content => writeFile root content hn

end HasFootprint

end Action

end Handoff
