import Handoff.Files.Writer
import Handoff.Proofs.Files.Directories

/-!
Saving a file: what a tree looks like after a file has been written or skipped, and what a second
attempt does.

After a success the tree stores the content and a second attempt changes nothing. After a failure
of the system the tree refuses the file from then on. Whether a file can be saved at all does not
depend on the other files of its directory.
-/

namespace Handoff.Files

namespace Workspace

variable {w w' w'' : Workspace} {a : Anchor} {ps : List Text} {name : Text} {content : ByteArray}

/-- Saves a file unless it holds the content, and says whether it was written. -/
def save (w : Workspace) (path : Path) (content : ByteArray) : Except Fault Bool × Workspace :=
  match holds w path content with
  | .error fault => (.error fault, w)
  | .ok true => (.ok false, w)
  | .ok false =>
    match w.ensureDirectory path.parent with
    | (.error fault, w) => (.error fault, w)
    | (.ok (), w) =>
      match w.write path content with
      | .error fault => (.error fault, w)
      | .ok w => (.ok true, w)

/-! ### Looking -/

lemma beq_content {c d : ByteArray} : (c == d) = true ↔ c = d := by
  rw [ByteArray.ext_iff]
  exact beq_iff_eq (a := c.data)

/-- The tree has a file with this content at the path. -/
structure Stores (w : Workspace) (path : Path) (content : ByteArray) : Prop where
  usable : path.isUsable = true
  look : w.look path = .ok (.file content)

lemma doesExist_of_usable {path : Path} (h : path.isUsable = true) :
    w.doesExist path = match w.look path with
      | .ok _ => .ok true
      | .error .nameTooLong => .error (.file .nameTooLong path.text)
      | .error _ => .ok false := by
  unfold doesExist
  rw [h]
  rcases w.look path with t | e
  · cases t <;> rfl
  · rfl

lemma Stores.holds {path : Path} (h : w.Stores path content) :
    holds w path content = .ok true := by
  have he : w.doesExist path = .ok true := by rw [doesExist_of_usable h.usable, h.look]
  have hr : w.read path = .ok content := by rw [read, h.look]
  simp only [Files.holds, he, hr, ok_bind, if_true]
  exact congrArg Except.ok (beq_content.2 rfl)

lemma stores_of_holds {path : Path} (h : holds w path content = .ok true) :
    w.Stores path content := by
  obtain ⟨there, he, h⟩ := bind_eq_ok.1 h
  cases there with
  | false => cases h
  | true =>
    obtain ⟨found, hr, h⟩ := bind_eq_ok.1 h
    have hfound : found = content := beq_content.1 (Except.ok.inj h)
    have husable : path.isUsable = true := by
      by_contra hu
      simp [doesExist, Bool.not_eq_true _ ▸ hu] at he
    refine ⟨husable, ?_⟩
    rw [← hfound]
    unfold read at hr
    split at hr <;> cases hr
    assumption

/-- What stands in the way of saving a file whose directory is there: the path is too long, or a
directory has its name. -/
def Blocked (w : Workspace) (path : Path) : Prop :=
  w.place path = .error .nameTooLong ∨ w.isDirectory path = true

lemma Grows.blocked (h : w.Grows w') {path : Path} (hb : w.Blocked path) : w'.Blocked path :=
  hb.imp (fun hp => h.place_error hp (by simp)) h.isDirectory

lemma holds_of_blocked (content : ByteArray) {path : Path} (hu : path.isUsable = true) (h : w.Blocked path) :
    ∃ t, holds w path content = .error (.file t path.text) := by
  rcases h with hp | hd
  · have hl : w.look path = .error .nameTooLong := by simp [look, hp]
    have he : w.doesExist path = .error (.file .nameTooLong path.text) := by
      rw [doesExist_of_usable hu, hl]
    exact ⟨.nameTooLong, by simp [Files.holds, he]⟩
  · obtain ⟨l, hl, hdir⟩ := isDirectory_iff.1 hd
    have hlook : w.look path = .ok .directory := look_eq_ok.2 ⟨l, hl, hdir⟩
    have he : w.doesExist path = .ok true := by rw [doesExist_of_usable hu, hlook]
    have hr : w.read path = .error (.file .isADirectory path.text) := by rw [read, hlook]
    exact ⟨.isADirectory, by simp [Files.holds, he, hr]⟩

lemma blocked_of_holds {path : Path} {fault : Fault} (h : holds w path content = .error fault) :
    path.isUsable = true ∧ w.Blocked path ∧ fault.ofSystem = true := by
  have hu : path.isUsable = true := by
    by_contra hu
    simp [Files.holds, doesExist, Bool.not_eq_true _ ▸ hu, pure, Except.pure] at h
  refine ⟨hu, ?_⟩
  simp only [Files.holds, doesExist_of_usable hu, read] at h
  rcases hl : w.look path with t | _ | c
  · rw [hl] at h
    cases t <;> simp [pure, Except.pure] at h
    refine ⟨Or.inl ?_, by rw [← h]; rfl⟩
    unfold look at hl
    rcases hp : w.place path with t | l
    · rw [hp] at hl
      exact congrArg Except.error (Except.error.inj hl)
    · rw [hp, ok_bind] at hl
      split at hl <;> cases hl
  · rw [hl] at h
    simp at h
    obtain ⟨l, hp, he⟩ := look_eq_ok.1 hl
    exact ⟨Or.inr (isDirectory_iff.2 ⟨l, hp, he⟩), by rw [← h]; rfl⟩
  · rw [hl] at h
    simp [pure, Except.pure] at h

/-! ### Writing into a directory that is there -/

/-- A name that leads to a place inside the directory it is looked up in. -/
lemma place_concat_eq_ok {l : Location} (h : w.place ⟨a, ps ++ [name]⟩ = .ok l) (hn : name ≠ "..") :
    ∃ dir, w.place ⟨a, ps⟩ = .ok dir ∧ w.entry? dir = some .directory ∧ l = dir ++ [name] := by
  cases hlong : isTooLong ⟨a, ps ++ [name]⟩ with
  | true =>
    rw [place_of_tooLong hlong] at h
    cases h
  | false =>
    rw [place_concat hlong] at h
    obtain ⟨dir, hdir, hs⟩ := bind_eq_ok.1 h
    exact ⟨dir, hdir, (step_eq_ok.1 hs).1, step_concat_eq_ok hs hn⟩

/-- Inside a directory that is there, a place is only missed when the path is too long. -/
lemma place_below (name : Text) (h : w.isDirectory ⟨a, ps⟩ = true) :
    w.place ⟨a, ps ++ [name]⟩ = .error .nameTooLong ∨ ∃ l, w.place ⟨a, ps ++ [name]⟩ = .ok l := by
  obtain ⟨dir, hdir, he⟩ := isDirectory_iff.1 h
  cases hlong : isTooLong ⟨a, ps ++ [name]⟩ with
  | true => exact Or.inl (place_of_tooLong hlong)
  | false =>
    rw [place_concat hlong, hdir, ok_bind, Workspace.step, he]
    by_cases hname : longestName < name.nameSize
    · exact Or.inl (if_pos hname)
    · exact Or.inr ⟨_, if_neg hname⟩

/-- Writing a file puts it at its place, in a directory that was there before. -/
structure Puts (w : Workspace) (path : Path) (name : Text) (content : ByteArray)
    (w' : Workspace) : Prop where
  place : ∃ dir, w.place path = .ok (dir ++ [name]) ∧ w.entry? dir = some .directory ∧
    w.entry? (dir ++ [name]) ≠ some .directory ∧ w' = w.put (dir ++ [name]) (.file content)

lemma write_eq_ok (hn : name ≠ "..") (h : w.write ⟨a, ps ++ [name]⟩ content = .ok w') :
    Puts w ⟨a, ps ++ [name]⟩ name content w' := by
  obtain ⟨-, -, h⟩ := bind_eq_ok.1 h
  rcases hp : w.place ⟨a, ps ++ [name]⟩ with t | l
  · rw [hp] at h
    cases h
  · rw [hp] at h
    obtain ⟨dir, -, hdir, rfl⟩ := place_concat_eq_ok hp hn
    refine ⟨dir, hp, hdir, ?_⟩
    simp only at h
    split at h
    · cases h
    · rename_i hne
      cases h
      exact ⟨hne, rfl⟩

lemma write_error {path : Path} {fault : Fault} (hu : path.isUsable = true)
    (hd : w.isDirectory path.parent = true) (hpath : path.parts ≠ [])
    (h : w.write path content = .error fault) : w.Blocked path ∧ fault.ofSystem = true := by
  obtain ⟨a, parts⟩ := path
  obtain ⟨ps, name, rfl⟩ : ∃ ps name, parts = ps ++ [name] :=
    ⟨_, _, (List.dropLast_concat_getLast hpath).symm⟩
  simp only [Path.parent, List.dropLast_concat] at hd
  simp only [write, checkPath_eq_ok.2 hu, ok_bind] at h
  rcases place_below name hd with hp | ⟨l, hp⟩
  · rw [hp] at h
    cases h
    exact ⟨Or.inl hp, rfl⟩
  · rw [hp] at h
    simp only at h
    split at h
    · rename_i he
      cases h
      exact ⟨Or.inr (isDirectory_iff.2 ⟨l, hp, he⟩), rfl⟩
    · cases h

lemma write_of_not_blocked (content : ByteArray) {path : Path} (hu : path.isUsable = true)
    (hd : w.isDirectory path.parent = true) (hpath : path.parts ≠ []) (hb : ¬ w.Blocked path) :
    ∃ w', w.write path content = .ok w' := by
  rcases hw : w.write path content with fault | w'
  · exact absurd (write_error hu hd hpath hw).1 hb
  · exact ⟨w', rfl⟩

namespace Puts

variable {path : Path}

lemma keeps (h : Puts w path name content w') {l : Location} {e : Entry}
    (hl : w.entry? l = some e) (hne : w.place path ≠ .ok l) : w'.entry? l = some e := by
  obtain ⟨dir, hp, -, -, rfl⟩ := h.place
  rw [entry?_put _ _ _ _ (by simp), if_neg (by rintro rfl; exact hne hp), hl]

lemma grows (h : Puts w path name content w') : w.Grows w' := by
  obtain ⟨dir, hp, hdir, hnew, rfl⟩ := h.place
  refine ⟨rfl, fun {l} hl => h.keeps hl ?_, fun {l c} hl => ?_⟩
  · rw [hp]
    rintro ⟨⟩
    exact hnew hl
  · rw [entry?_put _ _ _ _ (by simp)]
    split
    · exact ⟨_, rfl⟩
    · exact ⟨c, hl⟩

lemma sound (h : Puts w path name content w') (hw : w.Sound) : w'.Sound := by
  obtain ⟨dir, -, hdir, hnew, rfl⟩ := h.place
  exact hw.put hdir hnew _

lemma sameFiles (h : Puts w path name content w') : SameFilesBut (· = name) w w' := by
  obtain ⟨dir, -, -, -, rfl⟩ := h.place
  intro l c hl
  rw [entry?_put _ _ _ _ (by simp), if_neg]
  rintro rfl
  exact hl name (by simp) rfl

lemma stores (h : Puts w path name content w') (hu : path.isUsable = true) :
    w'.Stores path content := by
  obtain ⟨dir, hp, -, -, hw'⟩ := h.place
  refine ⟨hu, look_eq_ok.2 ⟨_, h.grows.place_ok hp, ?_⟩⟩
  rw [hw', entry?_put _ _ _ _ (by simp), if_pos rfl]

/-- Writing a file makes no directory. -/
lemma entry?_directory (h : Puts w path name content w') {l : Location} :
    w'.entry? l = some .directory ↔ w.entry? l = some .directory := by
  refine ⟨fun hl => ?_, h.grows.directory⟩
  obtain ⟨dir, -, -, -, rfl⟩ := h.place
  rw [entry?_put _ _ _ _ (by simp)] at hl
  split at hl
  · cases hl
  · exact hl

end Puts

/-! ### Saving -/

lemma save_of_stores {path : Path} (h : w.Stores path content) :
    w.save path content = (.ok false, w) := by
  simp only [save, h.holds]

/-- The tree cannot take a file, whatever is tried later on: its directory is denied, or the file
itself is blocked. -/
def Refuses (w : Workspace) (path : Path) : Prop :=
  (path.parent.isUsable = true ∧ w.Denied path.parent) ∨ (path.isUsable = true ∧ w.Blocked path)

lemma Grows.refuses (h : w.Grows w') {path : Path} (hr : w.Refuses path) : w'.Refuses path :=
  hr.imp (fun hd => ⟨hd.1, h.denied hd.2⟩) fun hb => ⟨hb.1, h.blocked hb.2⟩

/-- What a save leaves: a tree that has grown, the same files outside the name saved, and the
outcome visible in the tree. -/
structure Saved (w : Workspace) (path : Path) (name : Text) (content : ByteArray)
    (outcome : Except Fault Bool) (w' : Workspace) : Prop where
  grows : w.Grows w'
  sound : w'.Sound
  sameFiles : SameFilesBut (· = name) w w'
  stores : ∀ {b}, outcome = .ok b → w'.Stores path content
  refuses : ∀ {fault}, outcome = .error fault → fault.ofSystem = true → w'.Refuses path

theorem save_saved (hw : w.Sound) (hn : name ≠ "..") :
    Saved w ⟨a, ps ++ [name]⟩ name content (w.save ⟨a, ps ++ [name]⟩ content).1
      (w.save ⟨a, ps ++ [name]⟩ content).2 := by
  unfold save
  rcases hh : holds w ⟨a, ps ++ [name]⟩ content with fault | _ | _
  · obtain ⟨hu, hb, -⟩ := blocked_of_holds hh
    refine ⟨.refl w, hw, .refl _ w, ?_, fun _ _ => Or.inr ⟨hu, hb⟩⟩
    rintro b ⟨⟩
  · have hparent : Path.parent ⟨a, ps ++ [name]⟩ = ⟨a, ps⟩ := by simp [Path.parent]
    simp only [hparent]
    cases hdu : Path.isUsable ⟨a, ps⟩ with
    | false =>
      obtain ⟨fault, he, hsys⟩ := ensureDirectory_of_not_usable w hdu
      rw [he]
      refine ⟨.refl w, hw, .refl _ w, ?_, ?_⟩
      · rintro b ⟨⟩
      · rintro _ ⟨⟩ h
        rw [hsys] at h
        cases h
    | true =>
      obtain ⟨hf, he⟩ := ensureDirectory_ensured hw hdu
      rcases hr : w.ensureDirectory ⟨a, ps⟩ with ⟨fault | ⟨⟨⟩⟩, w'⟩
      · rw [hr] at hf he
        refine ⟨hf.grows, hf.sound hw, hf.sameFiles _, ?_, ?_⟩
        · rintro b ⟨⟩
        · rintro _ ⟨⟩ hsys
          cases he with
          | tooDeep => cases hsys
          | denied t text hd => exact Or.inl (by simpa [hparent] using ⟨hdu, hd⟩)
      · rw [hr] at hf he
        have hdir : w'.isDirectory ⟨a, ps⟩ = true := by
          cases he with
          | made h => exact h
        simp only
        cases hu : Path.isUsable ⟨a, ps ++ [name]⟩ with
        | false =>
          obtain ⟨fault, hc, hsys⟩ := checkPath_error hu
          have hwrite : w'.write ⟨a, ps ++ [name]⟩ content = .error fault := by simp [write, hc]
          rw [hwrite]
          refine ⟨hf.grows, hf.sound hw, hf.sameFiles _, ?_, ?_⟩
          · rintro b ⟨⟩
          · rintro _ ⟨⟩ h
            rw [hsys] at h
            cases h
        | true =>
          rcases hwrite : w'.write ⟨a, ps ++ [name]⟩ content with fault | w''
          · have hb := (write_error hu (by simpa [hparent] using hdir) (by simp) hwrite).1
            refine ⟨hf.grows, hf.sound hw, hf.sameFiles _, ?_, fun _ _ => Or.inr ⟨hu, hb⟩⟩
            rintro b ⟨⟩
          · have hputs := write_eq_ok hn hwrite
            refine ⟨hf.grows.trans hputs.grows, hputs.sound (hf.sound hw),
              (hf.sameFiles _).trans hputs.sameFiles, fun _ => hputs.stores hu, ?_⟩
            rintro _ ⟨⟩
  · refine ⟨.refl w, hw, .refl _ w, fun _ => stores_of_holds hh, ?_⟩
    rintro _ ⟨⟩

/-- What refuses a file goes on doing so, and does not change. -/
lemma save_of_refuses (content : ByteArray) (hw : w.Sound) (h : w.Refuses ⟨a, ps ++ [name]⟩) :
    ∃ t text, w.save ⟨a, ps ++ [name]⟩ content = (.error (.file t text), w) := by
  have hparent : Path.parent ⟨a, ps ++ [name]⟩ = ⟨a, ps⟩ := by simp [Path.parent]
  unfold save
  rcases h with ⟨hdu, hd⟩ | ⟨hu, hb⟩
  · rw [hparent] at hdu hd
    obtain ⟨t, he⟩ := ensureDirectory_of_denied hw hdu hd
    rcases hh : holds w ⟨a, ps ++ [name]⟩ content with fault | _ | _
    · obtain ⟨hu, hb, -⟩ := blocked_of_holds hh
      obtain ⟨t, ht⟩ := holds_of_blocked content hu hb
      rw [hh] at ht
      cases ht
      exact ⟨t, _, rfl⟩
    · simp only [hparent, he]
      exact ⟨t, _, rfl⟩
    · obtain ⟨l, hl, -⟩ := look_eq_ok.1 (stores_of_holds hh).look
      obtain ⟨t', -, hp⟩ := hd.below (x := name)
      rw [hl] at hp
      cases hp
  · obtain ⟨t, ht⟩ := holds_of_blocked content hu hb
    rw [ht]
    exact ⟨t, _, rfl⟩

/-- A file that is stored stays stored in a later tree that keeps the files of its name. -/
lemma Stores.keep (h : w.Stores ⟨a, ps ++ [name]⟩ content) (hn : name ≠ "..") (hg : w.Grows w')
    (hk : ∀ l c, l.getLast? = some name → w.entry? l = some (.file c) →
      w'.entry? l = some (.file c)) : w'.Stores ⟨a, ps ++ [name]⟩ content := by
  obtain ⟨l, hl, he⟩ := look_eq_ok.1 h.look
  obtain ⟨dir, -, -, rfl⟩ := place_concat_eq_ok hl hn
  exact ⟨h.usable, look_eq_ok.2 ⟨_, hg.place_ok hl, hk _ _ (by simp) he⟩⟩

/-- Saving a file does not change the current directory. -/
lemma here_save (w : Workspace) (path : Path) (content : ByteArray) :
    (w.save path content).2.here = w.here := by
  have hensure := w.here_ensureDirectory path.parent
  unfold save
  split
  · rfl
  · rfl
  rcases hv : w.ensureDirectory path.parent with ⟨fault | ⟨⟩, v⟩ <;> rw [hv] at hensure
  · exact hensure
  simp only
  rcases hw : v.write path content with fault | v'
  · exact hensure
  · obtain ⟨⟨⟩, -, hw⟩ := bind_eq_ok.1 hw
    split at hw
    · cases hw
    · split at hw <;> cases hw
      exact hensure

end Workspace

/-! ### The action that writes a file -/

lemma exec_writeContent (path : Path) (content : ByteArray) (s : World) :
    (writeContent path content).exec s =
      match s.workspace.ensureDirectory path.parent with
      | (.error fault, w) => (.error fault, { s with workspace := w })
      | (.ok (), w) =>
        match w.write path content with
        | .error fault => (.error fault, { s with workspace := w })
        | .ok w => (.ok (), { s with workspace := w }) := by
  simp only [writeContent, Action.exec_bind, Action.exec_get, Action.exec_set, Action.exec_ofExcept]
  rcases s.workspace.ensureDirectory path.parent with ⟨fault | ⟨⟨⟩⟩, w⟩
  · rfl
  · simp only
    rcases w.write path content with fault | w' <;> rfl

/-- Writing a file does to the tree what saving it does, and notes the path. -/
theorem exec_writeFile (root : Option Path) (path : Path) (content : ByteArray) (s : World) :
    ∃ journal, (writeFile root path content).exec s =
      ((s.workspace.save path content).1,
        { s with
          workspace := (s.workspace.save path content).2
          journal
          written := match (s.workspace.save path content).1 with
            | .ok true => s.written ++ [path]
            | _ => s.written
          skipped := match (s.workspace.save path content).1 with
            | .ok false => s.skipped ++ [path]
            | _ => s.skipped }) := by
  unfold writeFile Workspace.save
  rw [Action.exec_bind, Action.exec_get]
  simp only [Action.exec_bind, Action.exec_ofExcept]
  rcases holds s.workspace path content with fault | _ | _
  · exact ⟨_, rfl⟩
  · simp only [Bool.false_eq_true, if_false, Action.exec_bind, exec_writeContent]
    rcases s.workspace.ensureDirectory path.parent with ⟨fault | ⟨⟨⟩⟩, w⟩
    · exact ⟨_, rfl⟩
    · simp only
      rcases w.write path content with fault | w' <;> exact ⟨_, rfl⟩
  · exact ⟨_, rfl⟩

end Handoff.Files
