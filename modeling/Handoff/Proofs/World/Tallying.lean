import Handoff.Proofs.Files.Spreading
import Handoff.Proofs.World.Steady

/-!
What a run reports about the files that it saved.

Each saved file is reported once, as skipped when it stays what it was and as written otherwise. There is
one exception: before two dots every directory on the way must be there, so a file that is there with the
content is not found when one of them is missing. It is then written, and reported so, although it stays
what it was.
-/

namespace Handoff

open Files

namespace Files.Workspace

variable {w w' w'' : Workspace} {path : Path} {name : Text} {saved : List Path}
  {content : ByteArray}

/-- At the place of the path is the file that was there before. -/
def Kept (w w' : Workspace) (path : Path) : Prop :=
  ∃ c, w.entry? (path.locate w.here) = some (.file c) ∧
    w'.entry? (path.locate w.here) = some (.file c)

/-- What happens afterwards at other places does not change what was kept. -/
lemma Kept.congr_right (h : Spread (fun _ => True) saved w' w'') (hhere : w'.here = w.here)
    (hapart : ∀ q ∈ saved, q.locate w.here ≠ path.locate w.here) :
    Kept w w'' path ↔ Kept w w' path := by
  refine exists_congr fun c => and_congr_right fun _ => h.file _ c ?_
  rwa [hhere]

/-- What happened before at other places does not change what is kept. -/
lemma Kept.congr_left (h : Spread (fun _ => True) saved w w')
    (hapart : ∀ q ∈ saved, q.locate w.here ≠ path.locate w.here) :
    Kept w' w'' path ↔ Kept w w'' path := by
  unfold Kept
  rw [h.grows.here]
  exact exists_congr fun c => and_congr_left fun _ => h.file _ c hapart

/-- What is missing in a later tree was missing before. -/
lemma Grows.look_missing (h : w.Grows w') (hlook : w'.look path = .error .missing) :
    w.look path = .error .missing := by
  rcases hp : w.place path with t | l
  · have hmissing : t = .missing := by
      by_contra ht
      rw [look, h.place_error hp ht] at hlook
      exact ht (Except.error.inj hlook)
    rw [look, hp, hmissing]
    rfl
  · rw [look, h.place_ok hp] at hlook
    rw [look, hp]
    simp only [ok_bind] at hlook ⊢
    rcases he : w.entry? l with _ | _ | c
    · rfl
    · rw [h.directory he] at hlook
      cases hlook
    · obtain ⟨c', hc'⟩ := h.file he
      rw [hc'] at hlook
      cases hlook

/-! ### What is there is found -/

/-- The directories above what is there are there. -/
lemma Sound.directory_of_isSome (hs : w.Sound) {l : Location} {part : Text} {rest : List Text}
    (h : (w.entry? (l ++ part :: rest)).isSome) : w.entry? l = some .directory := by
  induction rest using List.reverseRecOn with
  | nil =>
    have habove := hs.above _ (by simp) h
    rwa [List.dropLast_concat] at habove
  | append_singleton rest last ih =>
    rw [← List.cons_append, ← List.append_assoc] at h
    have habove := hs.above _ (by simp) h
    rw [List.dropLast_concat] at habove
    exact ih (by rw [habove]; rfl)

/-- On the way down to what is there nothing is missing. -/
lemma Sound.walk_ne_missing (hs : w.Sound) {l : Location} {ps : List Text}
    (hdown : ∀ part ∈ ps, part ≠ "..") (h : (w.entry? (l ++ ps)).isSome) :
    w.walk l ps ≠ .error .missing := by
  induction ps generalizing l with
  | nil =>
    intro hwalk
    cases hwalk
  | cons part rest ih =>
    obtain ⟨hpart, hrest⟩ := List.forall_mem_cons.1 hdown
    have hstep : w.step l part =
        if longestName < part.nameSize then .error .nameTooLong else .ok (l ++ [part]) := by
      rw [Workspace.step, hs.directory_of_isSome h, Path.step, if_neg hpart]
    rw [walk_cons, hstep]
    split
    · intro hwalk
      cases hwalk
    · refine ih hrest ?_
      rwa [List.append_assoc, List.singleton_append]

/-- What is at the place of a path that goes down is not missing under it. -/
lemma Sound.look_ne_missing (hs : w.Sound) (hdown : (".." : Text) ∉ path.parts)
    (h : (w.entry? (path.locate w.here)).isSome) : w.look path ≠ .error .missing := by
  have hparts : ∀ part ∈ path.parts, part ≠ ".." := fun part hp he => hdown (he ▸ hp)
  intro hlook
  rcases hplace : w.place path with t | l
  · rw [look, hplace] at hlook
    cases hlook
    cases hlong : isTooLong path with
    | true =>
      rw [place_of_tooLong hlong] at hplace
      cases hplace
    | false =>
      rw [place_of_not_tooLong hlong] at hplace
      rw [Path.locate, foldl_step_down _ hparts] at h
      exact hs.walk_ne_missing hparts h hplace
  · rw [← eq_locate_of_place hplace] at h
    obtain ⟨e, he⟩ := Option.isSome_iff_exists.1 h
    cases hlook.symm.trans (look_eq_ok.2 ⟨l, hplace, he⟩)

/-! ### What a save keeps -/

/-- A file that is written although it is there with the content was not found. -/
lemma look_missing_of_save (hs : w.Sound) (hn : path.EndsIn name)
    (hsave : (w.save path content).1 = .ok true) (hkept : Kept w (w.save path content).2 path) :
    w.look path = .error .missing := by
  obtain ⟨c, hbefore, hafter⟩ := hkept
  have hsaved : Saved w path name content (w.save path content).1 (w.save path content).2 := by
    obtain ⟨a, ps, rfl⟩ := hn.exists_eq
    exact save_saved hs hn.ne_dots
  have hstores := hsaved.stores hsave
  -- The file that is there holds the content.
  have hthere := hstores.entry?
  rw [hsaved.grows.here, hafter] at hthere
  cases hthere
  rcases hlook : w.look path with t | e
  · by_contra hne
    have ht : t ≠ .missing := fun he => hne (congrArg Except.error he)
    unfold look at hlook
    rcases hp : w.place path with t' | l
    · rw [hp] at hlook
      cases hlook
      obtain ⟨l, hl, -⟩ := look_eq_ok.1 hstores.look
      cases (hsaved.grows.place_error hp ht).symm.trans hl
    · rw [hp, ok_bind, eq_locate_of_place hp, hbefore] at hlook
      cases hlook
  · obtain ⟨l, hl, he⟩ := look_eq_ok.1 hlook
    rw [eq_locate_of_place hl, hbefore] at he
    cases he
    have hskip := save_of_stores ⟨hstores.usable, hlook⟩
    rw [hskip] at hsave
    cases hsave

/-- A file that is skipped is left as it is. -/
lemma kept_of_save (hsave : (w.save path content).1 = .ok false) :
    Kept w (w.save path content).2 path := by
  have hholds : holds w path content = .ok true := by
    unfold Workspace.save at hsave
    rcases hh : holds w path content with fault | _ | _ <;> rw [hh] at hsave
    · cases hsave
    · rcases he : w.ensureDirectory path.parent with ⟨fault | ⟨⟩, v⟩ <;>
        simp only [he] at hsave
      · cases hsave
      · rcases hw : v.write path content with fault | v' <;> simp only [hw] at hsave <;> cases hsave
  have hstores := stores_of_holds hholds
  rw [save_of_stores hstores]
  exact ⟨content, hstores.entry?, hstores.entry?⟩

end Files.Workspace

open Workspace

namespace Action

variable {names names' : Text → Prop} {written skipped written' skipped' : List Path} {s t u : World}
  {path : Path} {name : Text}

/-- A run has reported these files as written and these as skipped, under names of their own. The files
elsewhere are the same, and so are the skipped ones; a written one is not, unless nothing was found under
its path. -/
structure Tally (names : Text → Prop) (written skipped : List Path) (s t : World) : Prop where
  written_eq : t.written = s.written ++ written
  skipped_eq : t.skipped = s.skipped ++ skipped
  named : ∀ p ∈ written ++ skipped, ∃ n, p.EndsIn n ∧ names n
  apart : (written ++ skipped).Pairwise fun p q => ∀ n, p.EndsIn n → ¬ q.EndsIn n
  spread : Spread (fun _ => True) (written ++ skipped) s.workspace t.workspace
  kept : ∀ p ∈ skipped, Kept s.workspace t.workspace p
  changed : ∀ p ∈ written, Kept s.workspace t.workspace p → s.workspace.look p = .error .missing

namespace Tally

lemma of_sameFiles (hs : s.workspace.Sound) (h : SameFiles s t) : Tally names [] [] s t where
  written_eq := by rw [h.written, List.append_nil]
  skipped_eq := by rw [h.skipped, List.append_nil]
  named := nofun
  apart := .nil
  spread := by
    rw [h.workspace]
    exact .refl _ hs
  kept := nofun
  changed := nofun

lemma mono (h : Tally names written skipped s t) (hn : ∀ n, names n → names' n) :
    Tally names' written skipped s t :=
  { h with named := fun p hp => (h.named p hp).imp fun n hend => ⟨hend.1, hn n hend.2⟩ }

/-- Paths with different last parts are different places. -/
lemma locate_ne {p q : Path} {n : Text} (hp : p.EndsIn n) (hq : ∃ m, q.EndsIn m) (hne : ¬ q.EndsIn n)
    (here : Location) : p.locate here ≠ q.locate here := by
  obtain ⟨m, hm⟩ := hq
  obtain ⟨dir, hdir⟩ := hp.locate here
  obtain ⟨dir', hdir'⟩ := hm.locate here
  intro heq
  rw [hdir, hdir'] at heq
  obtain rfl := (List.cons.inj (List.append_inj_right' heq rfl)).1
  exact hne hm

/-- Files with different names have paths with different last parts. -/
lemma not_endsIn (h : Tally names written skipped s t) (h' : Tally names' written' skipped' t u)
    (hd : ∀ n, names n → ¬ names' n) : ∀ p ∈ written ++ skipped, ∀ q ∈ written' ++ skipped', ∀ n,
      p.EndsIn n → ¬ q.EndsIn n := by
  intro p hp q hq n hn hn'
  obtain ⟨m, hm, hname⟩ := h.named p hp
  obtain ⟨m', hm', hname'⟩ := h'.named q hq
  obtain rfl := hn.unique hm
  obtain rfl := hn'.unique hm'
  exact hd _ hname hname'

/-- The files that one run and a later one report, when their names are different. -/
lemma trans (h : Tally names written skipped s t) (h' : Tally names' written' skipped' t u)
    (hd : ∀ n, names n → ¬ names' n) :
    Tally (fun n => names n ∨ names' n) (written ++ written') (skipped ++ skipped') s u := by
  have hperm : ((written ++ skipped) ++ (written' ++ skipped')).Perm
      ((written ++ written') ++ (skipped ++ skipped')) := by
    simp only [List.append_assoc]
    exact .append_left _ (by
      rw [← List.append_assoc, ← List.append_assoc]
      exact List.perm_append_comm.append_right _)
  have hnames := h.not_endsIn h' hd
  have hplaces : ∀ p ∈ written ++ skipped, ∀ q ∈ written' ++ skipped',
      p.locate s.workspace.here ≠ q.locate s.workspace.here := by
    intro p hp q hq
    obtain ⟨n, hn, -⟩ := h.named p hp
    obtain ⟨m, hm, -⟩ := h'.named q hq
    exact locate_ne hn ⟨m, hm⟩ (hnames p hp q hq n hn) _
  -- Neither run touches a file that the other one reports.
  have hearlier : ∀ p ∈ written ++ skipped,
      (Kept s.workspace u.workspace p ↔ Kept s.workspace t.workspace p) := fun p hp =>
    Kept.congr_right h'.spread h.spread.grows.here fun q hq => (hplaces p hp q hq).symm
  have hlater : ∀ q ∈ written' ++ skipped',
      (Kept t.workspace u.workspace q ↔ Kept s.workspace u.workspace q) := fun q hq =>
    Kept.congr_left h.spread fun p hp => hplaces p hp q hq
  exact {
    written_eq := by rw [h'.written_eq, h.written_eq, List.append_assoc]
    skipped_eq := by rw [h'.skipped_eq, h.skipped_eq, List.append_assoc]
    named := fun p hp => by
      rcases List.mem_append.1 (hperm.mem_iff.2 hp) with hp | hp
      · exact (h.named p hp).imp fun n hn => ⟨hn.1, Or.inl hn.2⟩
      · exact (h'.named p hp).imp fun n hn => ⟨hn.1, Or.inr hn.2⟩
    apart := by
      have hsymm {p q : Path} (hpq : ∀ n, p.EndsIn n → ¬ q.EndsIn n) :
          ∀ n, q.EndsIn n → ¬ p.EndsIn n := fun n hq hp => hpq n hp hq
      exact (hperm.pairwise_iff hsymm).1 (List.pairwise_append.2 ⟨h.apart, h'.apart, hnames⟩)
    spread := (h.spread.trans h'.spread).perm hperm
    kept := fun p hp => by
      rcases List.mem_append.1 hp with hp | hp
      · exact (hearlier p (List.mem_append_right _ hp)).2 (h.kept p hp)
      · exact (hlater p (List.mem_append_right _ hp)).1 (h'.kept p hp)
    changed := fun p hp hkept => by
      rcases List.mem_append.1 hp with hp | hp
      · exact h.changed p hp ((hearlier p (List.mem_append_left _ hp)).1 hkept)
      · have hmissing := h'.changed p hp ((hlater p (List.mem_append_left _ hp)).2 hkept)
        exact h.spread.grows.look_missing hmissing }

/-- Each place is reported once. -/
lemma nodup (h : Tally names written skipped s t) (here : Location) :
    ((written ++ skipped).map (Path.locate here)).Nodup := by
  refine List.pairwise_map.2 (h.apart.imp_of_mem fun {p q} hp hq hpq => ?_)
  obtain ⟨n, hn, -⟩ := h.named p hp
  obtain ⟨m, hm, -⟩ := h.named q hq
  exact locate_ne hn ⟨m, hm⟩ (hpq n hn) here

/-- A file that is written although it stays what it was lies behind two dots. -/
lemma dots_mem (h : Tally names written skipped s t) (hs : s.workspace.Sound)
    (hp : path ∈ written) (hkept : Kept s.workspace t.workspace path) : (".." : Text) ∈ path.parts := by
  by_contra hdown
  have hmissing := h.changed path hp hkept
  obtain ⟨c, hbefore, -⟩ := hkept
  exact hs.look_ne_missing hdown (by rw [hbefore]; rfl) hmissing

/-! ### One save -/

/-- The report of one save, none when it failed. -/
lemma of_exec_writeFile {root : Option Path} {content : ByteArray} {outcome : Except Fault Bool}
    (hs : s.workspace.Sound) (hn : path.EndsIn name)
    (h : (writeFile root path content).exec s = (outcome, t)) :
    ∃ written skipped, Tally (· = name) written skipped s t := by
  obtain ⟨journal, he⟩ := exec_writeFile root path content s
  obtain ⟨rfl, rfl⟩ := Prod.mk.inj (h.symm.trans he)
  have hspread : Spread (fun _ => True) _ s.workspace (s.workspace.save path content).2 :=
    .of_save hs trivial hn content
  have hmissing (hsave : (s.workspace.save path content).1 = .ok true) := look_missing_of_save hs hn hsave
  have hkept (hsave : (s.workspace.save path content).1 = .ok false) := kept_of_save hsave
  rcases hsave : s.workspace.save path content with ⟨fault | _ | _, v⟩ <;>
    rw [hsave] at hspread hmissing hkept
  · exact ⟨[], [], (List.append_nil _).symm, (List.append_nil _).symm, nofun, .nil, hspread, nofun,
      nofun⟩
  · exact ⟨[], [path], (List.append_nil _).symm, rfl,
      List.forall_mem_singleton.2 ⟨name, hn, rfl⟩, List.pairwise_singleton _ _, hspread,
      List.forall_mem_singleton.2 (hkept rfl), nofun⟩
  · exact ⟨[path], [], rfl, (List.append_nil _).symm,
      List.forall_mem_singleton.2 ⟨name, hn, rfl⟩, List.pairwise_singleton _ _, hspread, nofun,
      List.forall_mem_singleton.2 (hmissing rfl)⟩

end Tally

end Action

end Handoff
