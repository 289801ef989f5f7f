import Handoff.Proofs.Files.Saving

/-!
Whether a tree takes a file at all.

This depends on the directory and on what has the name of the file there, not on the content, and
saving files in the same directory does not change it.
-/

namespace Handoff.Files.Workspace

variable {w w' : Workspace} {a : Anchor} {ps : List Text} {name name' : Text} {content : ByteArray}

/-- The directory of the file is there or can be made, and the file is not blocked in it. -/
def Takes (w : Workspace) (path : Path) : Prop :=
  path.isUsable = true ∧
    ∃ made, w.ensureDirectory path.parent = (.ok (), made) ∧ ¬ made.Blocked path

@[simp] lemma parent_concat : Path.parent ⟨a, ps ++ [name]⟩ = ⟨a, ps⟩ := by simp [Path.parent]

lemma takes_iff_of_isDirectory (hd : w.isDirectory ⟨a, ps⟩ = true) :
    w.Takes ⟨a, ps ++ [name]⟩ ↔
      Path.isUsable ⟨a, ps ++ [name]⟩ = true ∧ ¬ w.Blocked ⟨a, ps ++ [name]⟩ := by
  refine and_congr_right fun hu => ?_
  rw [parent_concat, ensureDirectory_of_isDirectory (isUsable_above hu) hd]
  constructor
  · rintro ⟨made, h, hb⟩
    cases h
    exact hb
  · exact fun hb => ⟨w, rfl, hb⟩

lemma Stores.takes (h : w.Stores ⟨a, ps ++ [name]⟩ content) (hn : name ≠ "..") :
    w.Takes ⟨a, ps ++ [name]⟩ := by
  obtain ⟨l, hl, he⟩ := look_eq_ok.1 h.look
  obtain ⟨dir, hp, hdir, -⟩ := place_concat_eq_ok hl hn
  refine (takes_iff_of_isDirectory (isDirectory_iff.2 ⟨dir, hp, hdir⟩)).2 ⟨h.usable, ?_⟩
  rintro (hb | hb)
  · rw [hl] at hb
    cases hb
  · obtain ⟨l', hl', he'⟩ := isDirectory_iff.1 hb
    rw [hl] at hl'
    cases hl'
    rw [he] at he'
    cases he'

lemma Puts.not_blocked {path : Path} (h : Puts w path name content w') : ¬ w.Blocked path := by
  obtain ⟨dir, hp, -, hne, -⟩ := h.place
  rintro (hb | hb)
  · rw [hp] at hb
    cases hb
  · obtain ⟨l, hl, he⟩ := isDirectory_iff.1 hb
    rw [hp] at hl
    cases hl
    exact hne he

/-- Saving succeeds exactly in a tree that takes the file. -/
theorem save_isOk_iff (hw : w.Sound) (hn : name ≠ "..") :
    (∃ b, (w.save ⟨a, ps ++ [name]⟩ content).1 = .ok b) ↔ w.Takes ⟨a, ps ++ [name]⟩ := by
  unfold save
  rcases hh : holds w ⟨a, ps ++ [name]⟩ content with fault | _ | _
  · obtain ⟨hu, hb, -⟩ := blocked_of_holds hh
    refine ⟨nofun, ?_⟩
    rintro ⟨-, made, he, hnb⟩
    have hfounds := (ensureDirectory_ensured hw (isUsable_above hu)).1
    rw [parent_concat] at he
    rw [he] at hfounds
    exact absurd (hfounds.grows.blocked hb) hnb
  · simp only [parent_concat, Takes]
    rcases he : w.ensureDirectory ⟨a, ps⟩ with ⟨fault | ⟨⟨⟩⟩, made⟩
    · refine ⟨nofun, ?_⟩
      rintro ⟨-, made', h, -⟩
      cases h
    · simp only [Prod.mk.injEq, true_and, exists_eq_left']
      constructor
      · rintro ⟨b, h⟩
        rcases hwrite : made.write ⟨a, ps ++ [name]⟩ content with fault | w'
        · rw [hwrite] at h
          cases h
        · obtain ⟨⟨⟩, hu, -⟩ := bind_eq_ok.1 hwrite
          exact ⟨checkPath_eq_ok.1 hu, (write_eq_ok hn hwrite).not_blocked⟩
      · rintro ⟨hu, hb⟩
        have hmade := (ensureDirectory_ensured hw (isUsable_above hu)).2
        rw [he] at hmade
        cases hmade with
        | made hd =>
          obtain ⟨w', hwrite⟩ := write_of_not_blocked content hu
            (by simpa using hd) (by simp) hb
          rw [hwrite]
          exact ⟨true, rfl⟩
  · exact ⟨fun _ => (stores_of_holds hh).takes hn, fun _ => ⟨false, rfl⟩⟩

/-- Putting a file into a directory blocks no other file of it and frees none. -/
lemma Puts.blocked_iff {path : Path} (h : Puts w path name content w')
    (hd : w.isDirectory ⟨a, ps⟩ = true) :
    w'.Blocked ⟨a, ps ++ [name']⟩ ↔ w.Blocked ⟨a, ps ++ [name']⟩ := by
  refine ⟨fun hb => ?_, h.grows.blocked⟩
  rcases place_below name' hd with hp | ⟨l, hl⟩
  · exact Or.inl hp
  · have hl' := h.grows.place_ok hl
    rcases hb with hb | hb
    · rw [hl'] at hb
      cases hb
    · obtain ⟨m, hm, he⟩ := isDirectory_iff.1 hb
      rw [hl'] at hm
      cases hm
      exact Or.inr (isDirectory_iff.2 ⟨l, hl, h.entry?_directory.1 he⟩)

/-- Making the directory of a file changes nothing about it. -/
lemma takes_ensureDirectory (hw : w.Sound) :
    (w.ensureDirectory ⟨a, ps⟩).2.Takes ⟨a, ps ++ [name]⟩ ↔ w.Takes ⟨a, ps ++ [name]⟩ := by
  refine and_congr_right fun hu => ?_
  have hdu := isUsable_above hu
  obtain ⟨hfounds, hensured⟩ := ensureDirectory_ensured hw hdu
  have htooDeep : (w.ensureDirectory ⟨a, ps⟩).1 = .error .tooDeep →
      (w.ensureDirectory ⟨a, ps⟩).2 = w := by
    simp only [ensureDirectory, checkPath_eq_ok.2 hdu]
    exact ensureFrom_tooDeep
  rw [parent_concat]
  rcases he : w.ensureDirectory ⟨a, ps⟩ with ⟨fault | ⟨⟨⟩⟩, made⟩
  · rw [he] at hfounds hensured htooDeep
    cases hensured with
    | tooDeep =>
      obtain rfl : made = w := htooDeep rfl
      rw [he]
    | denied t text hd =>
      obtain ⟨t', ht⟩ := ensureDirectory_of_denied (hfounds.sound hw) hdu hd
      rw [ht]
      simp
  · rw [he] at hensured
    cases hensured with
    | made hd => rw [ensureDirectory_of_isDirectory hdu hd]

/-- Saving a file changes nothing about the files of its directory. -/
theorem takes_save (hw : w.Sound) (hn : name ≠ "..") :
    (w.save ⟨a, ps ++ [name]⟩ content).2.Takes ⟨a, ps ++ [name']⟩ ↔
      w.Takes ⟨a, ps ++ [name']⟩ := by
  unfold save
  rcases holds w ⟨a, ps ++ [name]⟩ content with fault | _ | _
  · rfl
  · simp only [parent_concat]
    rw [← takes_ensureDirectory hw]
    rcases he : w.ensureDirectory ⟨a, ps⟩ with ⟨fault | ⟨⟨⟩⟩, made⟩
    · rfl
    · simp only
      rcases hwrite : made.write ⟨a, ps ++ [name]⟩ content with fault | w'
      · rfl
      · obtain ⟨⟨⟩, hu, -⟩ := bind_eq_ok.1 hwrite
        have hensured := (ensureDirectory_ensured hw
          (isUsable_above (checkPath_eq_ok.1 hu))).2
        rw [he] at hensured
        cases hensured with
        | made hd =>
          have hputs := write_eq_ok hn hwrite
          rw [takes_iff_of_isDirectory hd, takes_iff_of_isDirectory (hputs.grows.isDirectory hd)]
          exact and_congr_right fun _ => not_congr (hputs.blocked_iff hd)
  · rfl

end Handoff.Files.Workspace
