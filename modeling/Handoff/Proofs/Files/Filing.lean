import Handoff.Proofs.Files.Settling

/-!
What saving several files in one directory leaves.

It is described without the order in which they were saved: each file that the tree takes is there,
and everything else is what making the directory leaves. So two runs that save the same files, each
under its own name, leave the same tree.
-/

namespace Handoff.Files.Workspace

variable {dir : Path} {files files' : List (Text × ByteArray)} {w w' w'' : Workspace} {name : Text}
  {content : ByteArray}

/-- The save of some file gets as far as making the directory. -/
def TriesSome (w : Workspace) (dir : Path) (files : List (Text × ByteArray)) : Prop :=
  ∃ file ∈ files, w.Tries (dir.file file.1)

/-- A place where none of the files is that the tree takes. -/
def IsElsewhere (w : Workspace) (dir : Path) (files : List (Text × ByteArray)) (l : Location) : Prop :=
  ∀ file ∈ files, w.Takes (dir.file file.1) → (dir.file file.1).locate w.here ≠ l

/-- The second tree is the first one after an attempt to save each of the files. -/
structure Filed (dir : Path) (files : List (Text × ByteArray)) (w w' : Workspace) : Prop where
  sound : w'.Sound
  grows : w.Grows w'
  takes : ∀ name, w'.Takes (dir.file name) ↔ w.Takes (dir.file name)
  stored : ∀ file ∈ files, w.Takes (dir.file file.1) →
    w'.entry? ((dir.file file.1).locate w.here) = some (.file file.2)
  idle : ¬ w.TriesSome dir files → w' = w
  settled : w.TriesSome dir files → w'.Settled dir
  elsewhere : w.TriesSome dir files → ∀ l, w.IsElsewhere dir files l →
    w'.entry? l = Workspace.entry? (w.ensureDirectory dir).2 l

/-- When saving one of the files fails because the directory cannot be made, it is the system that
fails. -/
def FilesOrdinarily (w : Workspace) (dir : Path) (files : List (Text × ByteArray)) : Prop :=
  w.TriesSome dir files → w.Ordinary dir

lemma triesSome_congr (h : ∀ file, file ∈ files' ↔ file ∈ files) :
    w.TriesSome dir files' ↔ w.TriesSome dir files :=
  exists_congr fun file => and_congr_left fun _ => h file

lemma not_triesSome_nil : ¬ w.TriesSome dir [] := by simp [TriesSome]

lemma triesSome_singleton : w.TriesSome dir [(name, content)] ↔ w.Tries (dir.file name) := by
  simp [TriesSome]

lemma triesSome_append :
    w.TriesSome dir (files ++ files') ↔ w.TriesSome dir files ∨ w.TriesSome dir files' := by
  simp only [TriesSome, List.mem_append, or_and_right, exists_or]

lemma isElsewhere_append {l : Location} : w.IsElsewhere dir (files ++ files') l ↔
    w.IsElsewhere dir files l ∧ w.IsElsewhere dir files' l := List.forall_mem_append

lemma FilesOrdinarily.congr (h : w.FilesOrdinarily dir files)
    (hfiles : ∀ file, file ∈ files' ↔ file ∈ files) : w.FilesOrdinarily dir files' :=
  fun htries => h ((triesSome_congr hfiles).1 htries)

lemma filesOrdinarily_nil : w.FilesOrdinarily dir [] := fun htries => absurd htries not_triesSome_nil

lemma filesOrdinarily_of_save (hw : w.Sound) (hn : name ≠ "..")
    (h : ∀ fault, (w.save (dir.file name) content).1 = .error fault → fault.ofSystem = true) :
    w.FilesOrdinarily dir [(name, content)] :=
  fun htries => ordinary_of_save content hw hn (triesSome_singleton.1 htries) h

namespace Filed

lemma nil (hw : w.Sound) : Filed dir [] w w where
  sound := hw
  grows := .refl w
  takes _ := Iff.rfl
  stored := nofun
  idle _ := rfl
  settled h := absurd h not_triesSome_nil
  elsewhere h := absurd h not_triesSome_nil

/-- One file, when the system is all that can fail. -/
lemma of_save (hw : w.Sound) (hn : name ≠ "..") (h : w.FilesOrdinarily dir [(name, content)]) :
    Filed dir [(name, content)] w (w.save (dir.file name) content).2 := by
  have hsaved : Saved w (dir.file name) name content (w.save (dir.file name) content).1
      (w.save (dir.file name) content).2 := save_saved hw hn
  exact {
    sound := hsaved.sound
    grows := hsaved.grows
    takes := fun _ => takes_save hw hn
    stored := fun file hfile htakes => by
      cases List.mem_singleton.1 hfile
      obtain ⟨b, hb⟩ := (save_file_isOk_iff dir content hw hn).2 htakes
      rw [← hsaved.grows.here]
      exact Stores.entry? (hsaved.stores hb)
    idle := fun hidle => by
      obtain ⟨t, hsave⟩ := save_of_not_tries content (mt triesSome_singleton.2 hidle)
      rw [hsave]
    settled := fun htry => (settled_of_save hw hn (triesSome_singleton.1 htry) (h htry) content).1
    elsewhere := fun htry l hl => (settled_of_save hw hn (triesSome_singleton.1 htry) (h htry) content).2
      l (hl _ List.mem_cons_self) }

lemma congr (h : Filed dir files w w') (hfiles : ∀ file, file ∈ files' ↔ file ∈ files) :
    Filed dir files' w w' where
  sound := h.sound
  grows := h.grows
  takes := h.takes
  stored file hfile := h.stored file ((hfiles file).1 hfile)
  idle hidle := h.idle (mt (triesSome_congr hfiles).2 hidle)
  settled htry := h.settled ((triesSome_congr hfiles).1 htry)
  elsewhere htry l hl := h.elsewhere ((triesSome_congr hfiles).1 htry) l
    fun file hfile => hl file ((hfiles file).2 hfile)

/-- When it is settled whether there is a directory, further files change nothing elsewhere. -/
lemma entry?_of_settled (h : Filed dir files w w') (hw : w.Sound) (hs : w.Settled dir) {l : Location}
    (hl : w.IsElsewhere dir files l) : w'.entry? l = w.entry? l := by
  by_cases htry : w.TriesSome dir files
  · rw [h.elsewhere htry l hl, (hs.ensureDirectory_eq hw).1]
  · rw [h.idle htry]

/-- Files that are saved after others, under different names. -/
lemma trans (h : Filed dir files w w') (h' : Filed dir files' w' w'') (hw : w.Sound)
    (hdots : ∀ file ∈ files ++ files', file.1 ≠ "..")
    (hne : ∀ file ∈ files, ∀ file' ∈ files', file.1 ≠ file'.1) :
    Filed dir (files ++ files') w w'' := by
  have hlater {l : Location} : w'.IsElsewhere dir files' l ↔ w.IsElsewhere dir files' l := by
    simp only [IsElsewhere, h.takes, h.grows.here]
  rw [List.forall_mem_append] at hdots
  exact {
    sound := h'.sound
    grows := h.grows.trans h'.grows
    takes := fun name => (h'.takes name).trans (h.takes name)
    stored := fun file hfile htakes => by
      rcases List.mem_append.1 hfile with hfile | hfile
      · rw [h'.entry?_of_settled h.sound (h.settled ⟨file, hfile, htakes.tries hw⟩),
          h.stored file hfile htakes]
        refine hlater.2 fun file' hfile' _ => ?_
        exact Path.locate_file_ne _ (hdots.2 file' hfile') (hdots.1 file hfile)
          (hne file hfile file' hfile').symm
      · have hstored := h'.stored file hfile ((h.takes _).2 htakes)
        rwa [h.grows.here] at hstored
    idle := fun hidle => by
      rw [triesSome_append, not_or] at hidle
      have hsame := h.idle hidle.1
      subst hsame
      exact h'.idle hidle.2
    settled := fun htry => by
      by_cases hfirst : w.TriesSome dir files
      · exact h'.grows.settled (h.settled hfirst)
      · have hsame := h.idle hfirst
        subst hsame
        exact h'.settled ((triesSome_append.1 htry).resolve_left hfirst)
    elsewhere := fun htry l hl => by
      obtain ⟨hl, hl'⟩ := isElsewhere_append.1 hl
      by_cases hfirst : w.TriesSome dir files
      · rw [h'.entry?_of_settled h.sound (h.settled hfirst) (hlater.2 hl'), h.elsewhere hfirst l hl]
      · have hsame := h.idle hfirst
        subst hsame
        exact h'.elsewhere ((triesSome_append.1 htry).resolve_left hfirst) l hl' }

/-- The order of the saves shows nowhere in the tree. -/
theorem entry?_eq (h : Filed dir files w w') (h' : Filed dir files w w'') (l : Location) :
    w''.entry? l = w'.entry? l := by
  by_cases hl : w.IsElsewhere dir files l
  · by_cases htry : w.TriesSome dir files
    · rw [h.elsewhere htry l hl, h'.elsewhere htry l hl]
    · rw [h.idle htry, h'.idle htry]
  · obtain ⟨file, hfile, htakes, rfl⟩ : ∃ file ∈ files, w.Takes (dir.file file.1) ∧
        (dir.file file.1).locate w.here = l := by
      simpa [IsElsewhere] using hl
    rw [h.stored file hfile htakes, h'.stored file hfile htakes]

/-- Whether the system is all that can fail is decided by the tree before the first file. -/
theorem filesOrdinarily_append (h : Filed dir files w w') :
    w.FilesOrdinarily dir (files ++ files') ↔
      w.FilesOrdinarily dir files ∧ w'.FilesOrdinarily dir files' := by
  simp only [FilesOrdinarily, triesSome_append]
  by_cases hfirst : w.TriesSome dir files
  · have hlater : w'.Ordinary dir := ((h.settled hfirst).ensureDirectory_eq h.sound).2
    exact ⟨fun hall => ⟨fun htry => hall (Or.inl htry), fun _ => hlater⟩, fun hall _ => hall.1 hfirst⟩
  · have hsame := h.idle hfirst
    subst hsame
    simp only [hfirst, false_or, false_imp_iff, true_and]

end Filed

end Handoff.Files.Workspace
