import Handoff.Files.Workspace
import Handoff.Proofs.World.Running

/-!
How a file tree grows under a run: directories and files stay what they are, only the contents of
files change.

A walk that arrives somewhere arrives at the same place in every later tree, and so does a walk
that fails for another reason than that something is missing. So a path that is refused once the
directories on the way have been tried stays refused.
-/

namespace Handoff.Files

namespace Workspace

variable {w w' w'' : Workspace}

/-- A tree without loose ends: whatever is there lies in a directory, and the current directory is
one. -/
structure Sound (w : Workspace) : Prop where
  here : w.entry? w.here = some .directory
  above : ∀ l, l ≠ [] → ( w.entry? l).isSome → w.entry? l.dropLast = some .directory

/-- A tree with nothing in it. -/
def empty : Workspace := ⟨[], ∅⟩

lemma sound_empty : empty.Sound where
  here := rfl
  above l hl he := by
    cases l with
    | nil => exact absurd rfl hl
    | cons part rest => simp [empty, entry?] at he

lemma not_file_empty (l : Location) (content : ByteArray) : empty.entry? l ≠ some (.file content) := by
  cases l <;> simp [empty, entry?]

@[simp] lemma entry?_nil (w : Workspace) : w.entry? [] = some .directory := rfl

lemma entry?_put (w : Workspace) (l m : Location) (e : Entry) (hl : l ≠ []) :
    Workspace.entry? (w.put l e) m = if m = l then some e else w.entry? m := by
  cases m with
  | nil => simp [Ne.symm hl]
  | cons part rest =>
    simp only [ entry?, put, List.isEmpty_cons, Bool.false_eq_true, if_false]
    rw [Std.TreeMap.getElem?_insert]
    by_cases h : part :: rest = l
    · subst h; simp
    · have hne : compare l (part :: rest) ≠ .eq := fun hc => h (Std.LawfulEqOrd.eq_of_compare hc).symm
      simp [h, hne]

@[simp] lemma here_put (w : Workspace) (l : Location) (e : Entry) : (w.put l e).here = w.here := rfl

/-- What is there stays there: a directory as a directory, a file as a file of some content. -/
structure Grows (w w' : Workspace) : Prop where
  here : w'.here = w.here
  directory : ∀ {l}, w.entry? l = some .directory → w'.entry? l = some .directory
  file : ∀ {l c}, w.entry? l = some (.file c) → ∃ c', w'.entry? l = some (.file c')

lemma Grows.refl (w : Workspace) : w.Grows w := ⟨rfl, id, fun h => ⟨_, h⟩⟩

lemma Grows.trans (h : w.Grows w') (h' : w'.Grows w'') : w.Grows w'' where
  here := h'.here.trans h.here
  directory hd := h'.directory (h.directory hd)
  file hf := by
    obtain ⟨_, hc⟩ := h.file hf
    exact h'.file hc

/-- Outside the locations with certain last parts, the files and their contents are the same. -/
def SameFilesBut (names : Text → Prop) (w w' : Workspace) : Prop :=
  ∀ l c, (∀ n, l.getLast? = some n → ¬ names n) →
    (w'.entry? l = some (.file c) ↔ w.entry? l = some (.file c))

section names

variable {names names' : Text → Prop}

lemma SameFilesBut.refl (names : Text → Prop) (w : Workspace) : SameFilesBut names w w :=
  fun _ _ _ => Iff.rfl

lemma SameFilesBut.trans (h : SameFilesBut names w w') (h' : SameFilesBut names w' w'') :
    SameFilesBut names w w'' :=
  fun l c hl => (h' l c hl).trans (h l c hl)

lemma SameFilesBut.mono (h : SameFilesBut names w w') (hn : ∀ n, names n → names' n) :
    SameFilesBut names' w w' :=
  fun l c hl => h l c fun n hln hnn => hl n hln (hn n hnn)

end names

/-! ### Walking -/

lemma step_eq_ok {l l' : Location} {part : Text} :
    w.step l part = .ok l' ↔
      w.entry? l = some .directory ∧ part.nameSize ≤ longestName ∧ l' = Path.step l part := by
  unfold step
  rcases w.entry? l with _ | _ | c
  · simp
  · by_cases h : longestName < part.nameSize
    · simp [h, Nat.not_le.2 h]
    · simp [h, Nat.not_lt.1 h, eq_comm]
  · simp

lemma Grows.step_ok (h : w.Grows w') {l l' : Location} {part : Text}
    (hs : w.step l part = .ok l') : w'.step l part = .ok l' := by
  rw [step_eq_ok] at hs ⊢
  exact ⟨h.directory hs.1, hs.2⟩

lemma Grows.step_error (h : w.Grows w') {l : Location} {part : Text} {t : FileTrouble}
    (hs : w.step l part = .error t) (ht : t ≠ .missing) : w'.step l part = .error t := by
  unfold step at hs ⊢
  rcases he : w.entry? l with _ | _ | c
  · rw [he] at hs
    cases hs
    exact absurd rfl ht
  · rw [he] at hs
    rw [h.directory he]
    exact hs
  · rw [he] at hs
    obtain ⟨c', hc⟩ := h.file he
    rw [hc]
    exact hs

@[simp] lemma walk_nil (w : Workspace) (l : Location) : w.walk l [] = .ok l := rfl

lemma walk_cons (w : Workspace) (l : Location) (part : Text) (rest : List Text) :
    w.walk l (part :: rest) = w.step l part >>= fun l' => w.walk l' rest := rfl

lemma walk_append (w : Workspace) (l : Location) (ps qs : List Text) :
    w.walk l (ps ++ qs) = w.walk l ps >>= fun l' => w.walk l' qs := by
  induction ps generalizing l with
  | nil => rfl
  | cons p ps ih =>
    rw [List.cons_append, walk_cons, walk_cons]
    cases w.step l p with
    | error t => rfl
    | ok l' => exact ih l'

lemma walk_concat (w : Workspace) (l : Location) (ps : List Text) (part : Text) :
    w.walk l (ps ++ [part]) = w.walk l ps >>= fun l' => w.step l' part := by
  rw [walk_append]
  cases w.walk l ps with
  | error t => rfl
  | ok l' =>
    simp only [ok_bind, walk_cons]
    cases w.step l' part <;> rfl

lemma Grows.walk_ok (h : w.Grows w') {l l' : Location} {ps : List Text}
    (hw : w.walk l ps = .ok l') : w'.walk l ps = .ok l' := by
  induction ps generalizing l with
  | nil => exact hw
  | cons p ps ih =>
    obtain ⟨m, hm, hrest⟩ := bind_eq_ok.1 hw
    exact bind_eq_ok.2 ⟨m, h.step_ok hm, ih hrest⟩

lemma Grows.walk_error (h : w.Grows w') {l : Location} {ps : List Text} {t : FileTrouble}
    (hw : w.walk l ps = .error t) (ht : t ≠ .missing) : w'.walk l ps = .error t := by
  induction ps generalizing l with
  | nil => cases hw
  | cons p ps ih =>
    rw [walk_cons] at hw ⊢
    rcases hs : w.step l p with t' | m
    · rw [hs] at hw
      cases hw
      rw [h.step_error hs ht]
      rfl
    · rw [hs] at hw
      rw [h.step_ok hs]
      exact ih hw

lemma place_of_tooLong {path : Path} (h : isTooLong path = true) :
    w.place path = .error .nameTooLong := by
  simp [place, h]

lemma place_of_not_tooLong {path : Path} (h : isTooLong path = false) :
    w.place path = w.walk (path.start w.here) path.parts := by
  simp [place, h]

lemma Grows.place_ok (h : w.Grows w') {path : Path} {l : Location} (hp : w.place path = .ok l) :
    w'.place path = .ok l := by
  cases hl : isTooLong path with
  | true =>
    rw [place_of_tooLong hl] at hp
    cases hp
  | false =>
    rw [place_of_not_tooLong hl] at hp ⊢
    rw [h.here]
    exact h.walk_ok hp

lemma Grows.place_error (h : w.Grows w') {path : Path} {t : FileTrouble}
    (hp : w.place path = .error t) (ht : t ≠ .missing) : w'.place path = .error t := by
  cases hl : isTooLong path with
  | true =>
    rw [place_of_tooLong hl] at hp ⊢
    exact hp
  | false =>
    rw [place_of_not_tooLong hl] at hp ⊢
    rw [h.here]
    exact h.walk_error hp ht

/-! ### What is at a path -/

lemma look_eq_ok {path : Path} {e : Entry} :
    w.look path = .ok e ↔ ∃ l, w.place path = .ok l ∧ w.entry? l = some e := by
  unfold look
  rw [bind_eq_ok]
  refine exists_congr fun l => and_congr_right fun _ => ?_
  rcases w.entry? l with _ | e'
  · simp
  · exact ⟨fun h => by cases h; rfl, fun h => by cases h; rfl⟩

lemma isDirectory_iff {path : Path} :
    w.isDirectory path = true ↔ ∃ l, w.place path = .ok l ∧ w.entry? l = some .directory := by
  rw [← look_eq_ok, isDirectory]
  rcases w.look path with t | _ | c <;> simp

lemma Grows.isDirectory (h : w.Grows w') {path : Path} (hd : w.isDirectory path = true) :
    w'.isDirectory path = true := by
  obtain ⟨l, hl, he⟩ := isDirectory_iff.1 hd
  exact isDirectory_iff.2 ⟨l, h.place_ok hl, h.directory he⟩

/-- A path that is no directory and cannot become one: the walk fails at something that is there,
or it ends at a file. -/
def Denied (w : Workspace) (path : Path) : Prop :=
  (∃ t, t ≠ FileTrouble.missing ∧ w.place path = .error t) ∨
    ∃ l c, w.place path = .ok l ∧ w.entry? l = some (.file c)

lemma Grows.denied (h : w.Grows w') {path : Path} (hd : w.Denied path) : w'.Denied path := by
  rcases hd with ⟨t, ht, hp⟩ | ⟨l, c, hp, he⟩
  · exact Or.inl ⟨t, ht, h.place_error hp ht⟩
  · obtain ⟨c', hc⟩ := h.file he
    exact Or.inr ⟨l, c', h.place_ok hp, hc⟩

lemma Denied.not_isDirectory {path : Path} (h : w.Denied path) : w.isDirectory path = false := by
  rw [Bool.eq_false_iff, Ne, isDirectory_iff]
  rintro ⟨l, hl, he⟩
  rcases h with ⟨t, -, hp⟩ | ⟨m, c, hp, hc⟩
  · rw [hl] at hp
    cases hp
  · rw [hl] at hp
    cases hp
    rw [he] at hc
    cases hc

end Workspace

end Handoff.Files
