import Handoff.Proofs.Files.Relative

/-!
Where saving files changes a tree.

A new directory lies on the way to a saved file, and a file changes only at the place of a saved
path. So two trees that grew out of one are compatible, without a directory in one where the other
has a file, when each path is either saved in both of them or lies in one common directory.
-/

namespace Handoff.Files

/-! ### On the way to a directory -/

/-- The path leads through the location, or to it. -/
def Path.Passes (here : Location) (path : Path) (l : Location) : Prop :=
  ∃ front, front <+: path.parts ∧ l = Path.locate here ⟨path.anchor, front⟩

lemma Path.passes_concat {here : Location} {a : Anchor} {ps : List Text} {x : Text} {l : Location}
    (h : Path.Passes here ⟨a, ps⟩ l) : Path.Passes here ⟨a, ps ++ [x]⟩ l := by
  obtain ⟨front, hfront, rfl⟩ := h
  exact ⟨front, hfront.trans (List.prefix_append ..), rfl⟩

lemma Path.passes_locate (here : Location) (path : Path) : path.Passes here (path.locate here) :=
  ⟨path.parts, List.prefix_rfl, rfl⟩

namespace Workspace

variable {w w' w'' : Workspace} {path : Path} {l m : Location}

/-- Where a walk goes on there is a directory. -/
lemma directory_of_walk {front rest : List Text} (h : w.walk l (front ++ rest) = .ok m)
    (hrest : rest ≠ []) : w.entry? (front.foldl Path.step l) = some .directory := by
  rw [walk_append] at h
  obtain ⟨l', hfront, h⟩ := bind_eq_ok.1 h
  cases rest with
  | nil => exact absurd rfl hrest
  | cons p ps =>
    obtain ⟨l'', hstep, -⟩ := bind_eq_ok.1 h
    rw [← eq_of_walk hfront]
    exact (step_eq_ok.1 hstep).1

/-! ### Paths that lead to files -/

/-- The path ends in a file name, and there is a file at it. -/
structure Reaches (w : Workspace) (path : Path) : Prop where
  endsIn : ∃ name, path.EndsIn name
  look : ∃ content, w.look path = .ok (.file content)

lemma Stores.reaches {content : ByteArray} {name : Text} (h : w.Stores path content)
    (hn : path.EndsIn name) : w.Reaches path := ⟨⟨name, hn⟩, content, h.look⟩

lemma Grows.reaches (hg : w.Grows w') (h : w.Reaches path) : w'.Reaches path := by
  obtain ⟨content, hlook⟩ := h.look
  obtain ⟨l, hplace, hentry⟩ := look_eq_ok.1 hlook
  obtain ⟨content', hentry'⟩ := hg.file hentry
  exact ⟨h.endsIn, content', look_eq_ok.2 ⟨l, hg.place_ok hplace, hentry'⟩⟩

lemma Reaches.file (h : w.Reaches path) : ∃ content,
    w.entry? (path.locate w.here) = some (.file content) := by
  obtain ⟨content, hlook⟩ := h.look
  obtain ⟨l, hplace, hentry⟩ := look_eq_ok.1 hlook
  rw [← eq_locate_of_place hplace]
  exact ⟨content, hentry⟩

/-- The way to a file leads through directories. -/
lemma Reaches.directory (h : w.Reaches path) (hl : path.parent.Passes w.here l) :
    w.entry? l = some .directory := by
  obtain ⟨name, hends⟩ := h.endsIn
  obtain ⟨a, ps, rfl⟩ := hends.exists_eq
  obtain ⟨content, hlook⟩ := h.look
  obtain ⟨m, hplace, -⟩ := look_eq_ok.1 hlook
  obtain ⟨front, ⟨rest, hparts⟩, rfl⟩ := hl
  have hlong : isTooLong ⟨a, ps ++ [name]⟩ = false := by
    by_contra hc
    rw [place_of_tooLong (by simpa using hc)] at hplace
    cases hplace
  have hps : front ++ rest = ps := by simpa [Path.parent] using hparts
  rw [place_of_not_tooLong hlong] at hplace
  simp only [← hps, List.append_assoc] at hplace
  exact directory_of_walk hplace (by simp)

/-! ### What a save changes -/

lemma makeDirectory_eq_put {a : Anchor} {ps : List Text} {x : Text}
    (h : w.makeDirectory ⟨a, ps ++ [x]⟩ = .ok w') :
    w.entry? (Path.locate w.here ⟨a, ps ++ [x]⟩) = none ∧
      w' = w.put (Path.locate w.here ⟨a, ps ++ [x]⟩) .directory := by
  rw [makeDirectory_concat] at h
  split at h
  · cases h
  rcases hplace : w.place ⟨a, ps⟩ with t | l
  · simp [hplace] at h
  rcases hstep : w.step l x with t | l'
  · simp [hplace, hstep] at h
  have hlocate : l' = Path.locate w.here ⟨a, ps ++ [x]⟩ := by
    rw [locate_concat ⟨a, ps⟩ x, ← eq_locate_of_place hplace]
    exact (step_eq_ok.1 hstep).2.2
  simp only [hplace, hstep] at h
  split at h
  · cases h
  · rename_i hfree
    cases h
    simp only [Bool.or_eq_true, not_or, Option.not_isSome_iff_eq_none] at hfree
    rw [← hlocate]
    exact ⟨hfree.1, rfl⟩

/-- The second tree is the first one with further directories on the way to one. -/
def FoundsOn (dir : Path) (w w' : Workspace) : Prop :=
  ∀ l, w'.entry? l = w.entry? l ∨
    (w.entry? l = none ∧ w'.entry? l = some .directory ∧ dir.Passes w.here l)

lemma FoundsOn.refl (dir : Path) (w : Workspace) : FoundsOn dir w w := fun _ => Or.inl rfl

lemma FoundsOn.trans {dir : Path} (h : FoundsOn dir w w') (h' : FoundsOn dir w' w'')
    (hhere : w'.here = w.here) : FoundsOn dir w w'' := by
  intro l
  rcases h' l with hsame' | ⟨hnone, hdir, hpasses⟩
  · rw [hsame']
    exact h l
  · rcases h l with hsame | ⟨-, hdir', -⟩
    · rw [hsame] at hnone
      rw [hhere] at hpasses
      exact Or.inr ⟨hnone, hdir, hpasses⟩
    · cases hnone.symm.trans hdir'

lemma FoundsOn.below {a : Anchor} {ps : List Text} (x : Text) (h : FoundsOn ⟨a, ps⟩ w w') :
    FoundsOn ⟨a, ps ++ [x]⟩ w w' :=
  fun l => (h l).imp id fun hl => ⟨hl.1, hl.2.1, Path.passes_concat hl.2.2⟩

lemma foundsOn_makeDirectory {a : Anchor} {ps : List Text} {x : Text}
    (h : w.makeDirectory ⟨a, ps ++ [x]⟩ = .ok w') : FoundsOn ⟨a, ps ++ [x]⟩ w w' := by
  obtain ⟨hnone, rfl⟩ := makeDirectory_eq_put h
  have hne : Path.locate w.here ⟨a, ps ++ [x]⟩ ≠ [] := by
    intro hnil
    rw [hnil] at hnone
    cases hnone
  intro l
  rw [entry?_put _ _ _ _ hne]
  split
  · rename_i hl
    rw [hl]
    exact Or.inr ⟨hnone, rfl, Path.passes_locate ..⟩
  · exact Or.inl rfl

/-- Making a directory with those above it adds directories on the way to it alone. -/
lemma foundsOn_ensureFrom (a : Anchor) (room : Nat) (above : List Text) (w : Workspace) :
    FoundsOn ⟨a, above.reverse⟩ w (ensureFrom a room above w).2 := by
  induction above generalizing room w with
  | nil =>
    cases room with
    | zero => exact .refl _ w
    | succ room =>
      unfold ensureFrom
      dsimp only
      split <;> exact .refl _ w
  | cons x above ih =>
    cases room with
    | zero => exact .refl _ w
    | succ room =>
      simp only [ensureFrom, List.reverse_cons]
      rcases hmake : w.makeDirectory ⟨a, above.reverse ++ [x]⟩ with t | w'
      · cases t with
        | missing =>
          have habove := (ih room w).below x
          have hhere := here_ensureFrom a room above w
          rcases hrest : ensureFrom a room above w with ⟨fault | ⟨⟨⟩⟩, v⟩ <;>
            rw [hrest] at habove hhere
          · exact habove
          · simp only
            rcases hagain : v.makeDirectory ⟨a, above.reverse ++ [x]⟩ with t | v'
            · simp only
              split <;> exact habove
            · exact habove.trans (foundsOn_makeDirectory hagain) hhere
        | _ =>
          simp only
          split <;> exact .refl _ w
      · exact foundsOn_makeDirectory hmake

lemma foundsOn_ensureDirectory (w : Workspace) (dir : Path) :
    FoundsOn dir w (w.ensureDirectory dir).2 := by
  unfold ensureDirectory
  split
  · exact .refl dir w
  · have h := foundsOn_ensureFrom dir.anchor mostNewDirectories dir.parts.reverse w
    rwa [List.reverse_reverse] at h

/-- A save adds directories on the way to the file, and puts the file there when it goes well. -/
theorem entry?_save (w : Workspace) {name : Text} (hn : path.EndsIn name) (content : ByteArray)
    (l : Location) :
    Workspace.entry? (w.save path content).2 l = w.entry? l ∨
      (w.entry? l = none ∧ Workspace.entry? (w.save path content).2 l = some .directory ∧
        path.parent.Passes w.here l) ∨
      (l = path.locate w.here ∧ (w.save path content).1 = .ok true) := by
  have hfounds := foundsOn_ensureDirectory w path.parent l
  have hhere := here_ensureDirectory w path.parent
  unfold save
  rcases holds w path content with fault | _ | _
  · exact Or.inl rfl
  · rcases hensure : w.ensureDirectory path.parent with ⟨fault | ⟨⟨⟩⟩, v⟩ <;>
      rw [hensure] at hfounds hhere
    · exact hfounds.imp id Or.inl
    · rcases hwrite : v.write path content with fault | v'
      · simp only [hwrite]
        exact hfounds.imp id Or.inl
      · simp only [hwrite]
        obtain ⟨a, ps, rfl⟩ := hn.exists_eq
        obtain ⟨dir, hplace, -, -, rfl⟩ := (write_eq_ok hn.ne_dots hwrite).place
        rw [entry?_put _ _ _ _ (by simp)]
        split
        · rename_i hl
          rw [hl, eq_locate_of_place hplace, hhere]
          exact Or.inr (Or.inr ⟨rfl, trivial⟩)
        · exact hfounds.imp id Or.inl
  · exact Or.inl rfl

/-! ### What several saves change -/

/-- The second tree is the first one after saves at some paths, those of a list among them with
success. -/
structure Spread (paths : Path → Prop) (saved : List Path) (w w' : Workspace) : Prop where
  sound : w'.Sound
  grows : w.Grows w'
  reached : ∀ p ∈ saved, paths p ∧ w'.Reaches p
  directory : ∀ l, w'.entry? l = some .directory →
    w.entry? l = some .directory ∨ ∃ p, paths p ∧ p.parent.Passes w.here l
  file : ∀ l c, (∀ p ∈ saved, p.locate w.here ≠ l) →
    (w'.entry? l = some (.file c) ↔ w.entry? l = some (.file c))

namespace Spread

variable {paths : Path → Prop} {saved saved' : List Path}

lemma refl (paths : Path → Prop) (hw : w.Sound) : Spread paths [] w w :=
  ⟨hw, .refl w, List.forall_mem_nil _, fun _ => Or.inl, fun _ _ _ => Iff.rfl⟩

lemma trans (h : Spread paths saved w w') (h' : Spread paths saved' w' w'') :
    Spread paths (saved ++ saved') w w'' where
  sound := h'.sound
  grows := h.grows.trans h'.grows
  reached := List.forall_mem_append.2
    ⟨fun p hp => ⟨(h.reached p hp).1, h'.grows.reaches (h.reached p hp).2⟩, h'.reached⟩
  directory l hl := by
    rcases h'.directory l hl with hl | ⟨p, hp, hpasses⟩
    · exact h.directory l hl
    · rw [h.grows.here] at hpasses
      exact Or.inr ⟨p, hp, hpasses⟩
  file l c hl := by
    obtain ⟨hl, hl'⟩ := List.forall_mem_append.1 hl
    rw [← h.grows.here] at hl'
    exact (h'.file l c hl').trans (h.file l c hl)

lemma perm (h : Spread paths saved w w') (hp : saved.Perm saved') : Spread paths saved' w w' where
  sound := h.sound
  grows := h.grows
  reached p hm := h.reached p (hp.mem_iff.2 hm)
  directory := h.directory
  file l c hl := h.file l c fun p hm => hl p (hp.mem_iff.1 hm)

lemma mono {paths' : Path → Prop} (h : Spread paths saved w w') (hp : ∀ p, paths p → paths' p) :
    Spread paths' saved w w' where
  sound := h.sound
  grows := h.grows
  reached p hm := ⟨hp p (h.reached p hm).1, (h.reached p hm).2⟩
  directory l hl := (h.directory l hl).imp id fun ⟨p, hpath, hpasses⟩ => ⟨p, hp p hpath, hpasses⟩
  file := h.file

/-- One save. -/
lemma of_save {name : Text} (hw : w.Sound) (hp : paths path) (hn : path.EndsIn name)
    (content : ByteArray) : Spread paths
      (if (w.save path content).1.isOk then [path] else []) w (w.save path content).2 := by
  have hentry := entry?_save w hn content
  have hsaved : Saved w path name content (w.save path content).1 (w.save path content).2 := by
    obtain ⟨a, ps, rfl⟩ := hn.exists_eq
    exact save_saved hw hn.ne_dots
  refine ⟨hsaved.sound, hsaved.grows, fun p hmem => ?_, fun l hl => ?_, fun l c hl => ?_⟩
  · split at hmem
    · rename_i hok
      cases List.mem_singleton.1 hmem
      rcases hb : (w.save path content).1 with fault | b
      · rw [hb] at hok
        cases hok
      · exact ⟨hp, (hsaved.stores hb).reaches hn⟩
    · cases hmem
  · rcases hentry l with h | ⟨-, -, hpasses⟩ | ⟨rfl, hok⟩
    · exact Or.inl (h ▸ hl)
    · exact Or.inr ⟨path, hp, hpasses⟩
    · obtain ⟨c, hc⟩ := ((hsaved.stores hok).reaches hn).file
      rw [hsaved.grows.here, hl] at hc
      cases hc
  · rcases hentry l with h | ⟨hnone, hdir, -⟩ | ⟨rfl, hok⟩
    · rw [h]
    · rw [hnone, hdir]
      simp
    · rw [hok] at hl
      exact absurd rfl (hl path List.mem_cons_self)

end Spread

/-! ### Trees that agree on what is a directory -/

/-- Neither tree has a directory where the other one has a file. -/
structure Compatible (w w' : Workspace) : Prop where
  here : w'.here = w.here
  directory : ∀ {l c}, w.entry? l = some .directory → w'.entry? l ≠ some (.file c)
  file : ∀ {l c}, w.entry? l = some (.file c) → w'.entry? l ≠ some .directory

namespace Compatible

lemma symm (h : Compatible w w') : Compatible w' w where
  here := h.here.symm
  directory hl hl' := h.file hl' hl
  file hl hl' := h.directory hl' hl

lemma walk (h : Compatible w w') {ps : List Text} (hw : w.walk l ps = .ok m) :
    w'.walk l ps = .ok m ∨ w'.walk l ps = .error .missing := by
  induction ps generalizing l with
  | nil => exact Or.inl hw
  | cons p ps ih =>
    obtain ⟨l', hstep, hrest⟩ := bind_eq_ok.1 hw
    obtain ⟨hdir, hsize, hl'⟩ := step_eq_ok.1 hstep
    rw [walk_cons]
    rcases hentry : w'.entry? l with _ | _ | c
    · right
      rw [Workspace.step, hentry]
      rfl
    · rw [step_eq_ok.2 ⟨hentry, hsize, hl'⟩, ok_bind]
      exact ih hrest
    · exact absurd hentry (h.directory hdir)

/-- Where a path leads in one tree it leads in the other, unless something is missing there. -/
lemma place (h : Compatible w w') (hp : w.place path = .ok l) :
    w'.place path = .ok l ∨ w'.place path = .error .missing := by
  cases hlong : isTooLong path with
  | true =>
    rw [place_of_tooLong hlong] at hp
    cases hp
  | false =>
    rw [place_of_not_tooLong hlong] at hp ⊢
    rw [h.here]
    exact h.walk hp

/-- A file that is there in one tree is not refused by the other. -/
theorem not_refuses (h : Compatible w w') (hr : w.Reaches path) : ¬ w'.Refuses path := by
  obtain ⟨name, hn⟩ := hr.endsIn
  obtain ⟨content, hlook⟩ := hr.look
  obtain ⟨l, hplace, hfile⟩ := look_eq_ok.1 hlook
  obtain ⟨a, ps, rfl⟩ := hn.exists_eq
  obtain ⟨dir, hdir, hentry, rfl⟩ := place_concat_eq_ok hplace hn.ne_dots
  have hparent : Path.parent ⟨a, ps ++ [name]⟩ = ⟨a, ps⟩ := by simp [Path.parent]
  rintro (⟨-, hdenied⟩ | ⟨-, hblocked⟩)
  · rw [hparent] at hdenied
    rcases hdenied with ⟨t, ht, hp⟩ | ⟨l, c, hp, hc⟩ <;> rcases h.place hdir with hp' | hp' <;>
      cases hp.symm.trans hp'
    · exact ht rfl
    · exact h.directory hentry hc
  · rcases hblocked with hp | hd
    · rcases h.place hplace with hp' | hp' <;> cases hp.symm.trans hp'
    · obtain ⟨l, hp, hd⟩ := isDirectory_iff.1 hd
      rcases h.place hplace with hp' | hp' <;> cases hp.symm.trans hp'
      exact h.file hfile hd

end Compatible

section

variable {paths : Path → Prop} {saved saved' : List Path} {dir : Path}

/-- A directory that one tree has gained is no file of the other one. -/
private lemma Spread.not_file (h : Spread paths saved w w') (h' : Spread paths saved' w w'')
    (hcommon : ∀ p, paths p → (p ∈ saved ∧ p ∈ saved') ∨ p.parent = dir) {c : ByteArray}
    (hl : w'.entry? l = some .directory) : w''.entry? l ≠ some (.file c) := by
  intro hc
  have hnotFile {c : ByteArray} : w'.entry? l ≠ some (.file c) := by
    rw [hl]
    nofun
  have hnotDirectory : w''.entry? l ≠ some .directory := by
    rw [hc]
    nofun
  -- The file came from a save, because the first tree has no file there.
  obtain ⟨q, hq, hlq⟩ : ∃ q ∈ saved', q.locate w.here = l := by
    by_contra hnone
    simp only [not_exists, not_and] at hnone
    obtain ⟨c', hc'⟩ := h.grows.file ((h'.file l c hnone).1 hc)
    exact hnotFile hc'
  obtain ⟨hpaths, hreaches⟩ := h'.reached q hq
  -- And it was not saved in the other tree, which has a directory there.
  have hqdir : q.parent = dir := by
    refine (hcommon q hpaths).resolve_left fun hboth => ?_
    obtain ⟨c', hc'⟩ := (h.reached q hboth.1).2.file
    rw [h.grows.here, hlq] at hc'
    exact hnotFile hc'
  rcases h.directory l hl with hw | ⟨p, hp, hpasses⟩
  · exact hnotDirectory (h'.grows.directory hw)
  · rcases hcommon p hp with ⟨-, hp'⟩ | hpdir
    · refine hnotDirectory ((h'.reached p hp').2.directory ?_)
      rw [h'.grows.here]
      exact hpasses
    · refine hnotDirectory (hreaches.directory ?_)
      rw [h'.grows.here, hqdir, ← hpdir]
      exact hpasses

/-- Trees that grew out of one are compatible when every path is saved in both of them or lies in one
directory. -/
theorem Spread.compatible (h : Spread paths saved w w') (h' : Spread paths saved' w w'')
    (hcommon : ∀ p, paths p → (p ∈ saved ∧ p ∈ saved') ∨ p.parent = dir) : Compatible w' w'' where
  here := h'.grows.here.trans h.grows.here.symm
  directory := h.not_file h' hcommon
  file hl hl' := h'.not_file h (fun p hp => (hcommon p hp).imp And.symm id) hl' hl

end

end Workspace

end Handoff.Files
