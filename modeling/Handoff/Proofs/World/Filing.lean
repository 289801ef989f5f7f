import Handoff.Proofs.Files.Filing
import Handoff.Proofs.World.InStep
import Handoff.Proofs.World.Tallying
import Mathlib.Data.List.Nodup

/-!
What a run reports that saves several files in one directory, whatever their order.

It visits the files that the tree takes, each once. Which of them it counts as written depends on the
order only when a file may be there without being found: the path of the directory goes up again,
and the directory is not found before the run.
-/

namespace Handoff.Action

open Files Workspace

variable {dir : Path} {files files' : List (Text × ByteArray)} {s t t' u : World} {name : Text}
  {content : ByteArray}

/-- The run has tried to save each of the files, and has reported those that the tree takes. -/
structure Deposits (dir : Path) (files : List (Text × ByteArray)) (s t : World) : Prop where
  tree : Filed dir files s.workspace t.workspace
  reported : ∃ written skipped, Tally (· ∈ files.map Prod.fst) written skipped s t ∧
    ∀ p, p ∈ written ++ skipped ↔
      ∃ file ∈ files, s.workspace.Takes (dir.file file.1) ∧ p = dir.file file.1

lemma Tally.visited {names : Text → Prop} {written skipped : List Path}
    (h : Tally names written skipped s t) : t.visited.Perm (s.visited ++ (written ++ skipped)) := by
  rw [World.visited, World.visited, h.written_eq, h.skipped_eq, List.append_assoc, List.append_assoc]
  refine List.Perm.append_left _ ?_
  rw [← List.append_assoc, ← List.append_assoc]
  exact List.perm_append_comm.append_right _

lemma Tally.between {names : Text → Prop} {written skipped : List Path} {s' t' : World}
    (h : Tally names written skipped s' t') (hs : SameFiles s s') (ht : SameFiles t' t) :
    Tally names written skipped s t where
  written_eq := by rw [ht.written, h.written_eq, hs.written]
  skipped_eq := by rw [ht.skipped, h.skipped_eq, hs.skipped]
  named := h.named
  apart := h.apart
  spread := by
    rw [← hs.workspace, ht.workspace]
    exact h.spread
  kept := by
    rw [← hs.workspace, ht.workspace]
    exact h.kept
  changed := by
    rw [← hs.workspace, ht.workspace]
    exact h.changed

namespace Deposits

lemma of_sameFiles (hs : s.workspace.Sound) (h : SameFiles s t) : Deposits dir [] s t where
  tree := by
    rw [h.workspace]
    exact .nil hs
  reported := ⟨[], [], .of_sameFiles hs h, by simp⟩

lemma of_writeFile {root : Option Path} {outcome : Except Fault Bool} (hs : s.workspace.Sound)
    (hn : name ≠ "..") (ho : s.workspace.FilesOrdinarily dir [(name, content)])
    (h : (writeFile root (dir.file name) content).exec s = (outcome, t)) :
    Deposits dir [(name, content)] s t where
  tree := by
    have htree := Filed.of_save hs hn ho
    rwa [(save_of_exec_writeFile h).1] at htree
  reported := by
    obtain ⟨written, skipped, htally⟩ := Tally.of_exec_writeFile hs (Path.endsIn_file hn) h
    refine ⟨written, skipped, htally.mono (by simp), fun p => ?_⟩
    have htakes := save_file_isOk_iff dir content hs hn
    rw [(save_of_exec_writeFile h).1] at htakes
    simp only [List.mem_singleton, exists_eq_left]
    rw [← htakes]
    cases outcome with
    | ok b =>
      have hperm := (List.perm_append_left_iff _).1 (htally.visited.symm.trans (visited_of_writeFile h))
      simp [hperm.mem_iff]
    | error fault =>
      have hvisited := htally.visited
      rw [visited_of_writeFile_error h] at hvisited
      have hnil : written ++ skipped = [] := by simpa using hvisited.length_eq
      simp [hnil]

lemma congr (h : Deposits dir files s t) (hfiles : ∀ file, file ∈ files' ↔ file ∈ files) :
    Deposits dir files' s t where
  tree := h.tree.congr hfiles
  reported := by
    obtain ⟨written, skipped, htally, hmem⟩ := h.reported
    refine ⟨written, skipped, htally.mono fun n hn => ?_, fun p => (hmem p).trans ?_⟩
    · obtain ⟨file, hfile, rfl⟩ := List.mem_map.1 hn
      exact List.mem_map_of_mem ((hfiles file).2 hfile)
    · exact exists_congr fun file => and_congr_left fun _ => (hfiles file).symm

lemma trans (h : Deposits dir files s t) (h' : Deposits dir files' t u) (hs : s.workspace.Sound)
    (hdots : ∀ file ∈ files ++ files', file.1 ≠ "..")
    (hne : ∀ file ∈ files, ∀ file' ∈ files', file.1 ≠ file'.1) :
    Deposits dir (files ++ files') s u where
  tree := h.tree.trans h'.tree hs hdots hne
  reported := by
    obtain ⟨written, skipped, htally, hmem⟩ := h.reported
    obtain ⟨written', skipped', htally', hmem'⟩ := h'.reported
    have hnames : ∀ n, n ∈ files.map Prod.fst → ¬ n ∈ files'.map Prod.fst := by
      intro n hn hn'
      obtain ⟨file, hfile, rfl⟩ := List.mem_map.1 hn
      obtain ⟨file', hfile', he⟩ := List.mem_map.1 hn'
      exact hne file hfile file' hfile' he.symm
    refine ⟨_, _, (htally.trans htally' hnames).mono ?_, fun p => ?_⟩
    · intro n hn
      rwa [List.map_append, List.mem_append]
    · have hboth : p ∈ (written ++ written') ++ (skipped ++ skipped') ↔
          p ∈ written ++ skipped ∨ p ∈ written' ++ skipped' := by
        simp only [List.mem_append]
        exact or_or_or_comm
      rw [hboth, hmem, hmem']
      simp only [h.tree.takes, List.mem_append, or_and_right, exists_or]

/-- Before and after the saves something may happen that leaves the files alone. -/
lemma between {s' t' : World} (h : Deposits dir files s' t') (hs : SameFiles s s')
    (ht : SameFiles t' t) : Deposits dir files s t where
  tree := by
    have htree := h.tree
    rwa [hs.workspace, ← ht.workspace] at htree
  reported := by
    obtain ⟨written, skipped, htally, hmem⟩ := h.reported
    rw [hs.workspace] at hmem
    exact ⟨written, skipped, htally.between hs ht, hmem⟩

end Deposits

/-! ### Two runs -/

/-- Two runs end with the same tree, and have visited the same files. If the reports are exact, they
tell the same files written and the same ones skipped. -/
structure EndsAlike (exact : Prop) (t t' : World) : Prop where
  here : t'.workspace.here = t.workspace.here
  entry : ∀ l, t'.workspace.entry? l = t.workspace.entry? l
  visited : t'.visited.Perm t.visited
  written : exact → t'.written.Perm t.written
  skipped : exact → t'.skipped.Perm t.skipped

lemma EndsAlike.refl (exact : Prop) (t : World) : EndsAlike exact t t :=
  ⟨rfl, fun _ => rfl, .refl _, fun _ => .refl _, fun _ => .refl _⟩

lemma EndsAlike.of_sameFiles {exact : Prop} {v v' : World} (h : EndsAlike exact t t')
    (ht : SameFiles t v) (ht' : SameFiles t' v') : EndsAlike exact v v' where
  here := by rw [ht.workspace, ht'.workspace, h.here]
  entry l := by rw [ht.workspace, ht'.workspace, h.entry]
  visited := by
    rw [visited_of_sameFiles ht, visited_of_sameFiles ht']
    exact h.visited
  written hexact := by
    rw [ht.written, ht'.written]
    exact h.written hexact
  skipped hexact := by
    rw [ht.skipped, ht'.skipped]
    exact h.skipped hexact

/-- Every file that is there is found: the path of the directory goes down only, or the directory is
found. -/
def FindsFiles (w : Workspace) (dir : Path) : Prop :=
  (".." : Text) ∉ dir.parts ∨ w.isDirectory dir = true

lemma FindsFiles.look_ne_missing {w w' : Workspace} (h : FindsFiles w dir) (hw : w.Sound)
    (hn : name ≠ "..") (hkept : Kept w w' (dir.file name)) :
    w.look (dir.file name) ≠ .error .missing := by
  obtain ⟨c, hthere, -⟩ := hkept
  rcases h with hdown | hdir
  · refine hw.look_ne_missing ?_ (by rw [hthere]; rfl)
    simpa [Path.file, hdown] using hn.symm
  · intro hlook
    rcases place_below name hdir with hp | ⟨l, hp⟩
    · rw [look, show w.place (dir.file name) = _ from hp] at hlook
      cases hlook
    · change w.place (dir.file name) = .ok l at hp
      rw [eq_locate_of_place hp] at hp
      cases hlook.symm.trans (look_eq_ok.2 ⟨_, hp, hthere⟩)

/-- What two runs report as written is the same when every file that is there is found. -/
private lemma Deposits.mem_written {written skipped written' skipped' : List Path}
    {names : Text → Prop} (hs : s.workspace.Sound) (hdots : ∀ file ∈ files, file.1 ≠ "..")
    (hfinds : FindsFiles s.workspace dir)
    (hentry : ∀ l, t'.workspace.entry? l = t.workspace.entry? l)
    (h : Tally names written skipped s t) (h' : Tally names written' skipped' s t')
    (hmem : ∀ p, p ∈ written ++ skipped → ∃ file ∈ files, p = dir.file file.1)
    (hsame : ∀ p, p ∈ written ++ skipped → p ∈ written' ++ skipped') {p : Path}
    (hp : p ∈ written) : p ∈ written' := by
  refine (List.mem_append.1 (hsame p (List.mem_append_left _ hp))).resolve_right fun hp' => ?_
  obtain ⟨c, hbefore, hafter⟩ := h'.kept p hp'
  rw [hentry] at hafter
  have hkept : Kept s.workspace t.workspace p := ⟨c, hbefore, hafter⟩
  have hmissing := h.changed p hp hkept
  obtain ⟨file, hfile, rfl⟩ := hmem p (List.mem_append_left _ hp)
  exact hfinds.look_ne_missing hs (hdots file hfile) hkept hmissing

/-- Two runs that save the same files end alike. -/
theorem Deposits.endsAlike (h : Deposits dir files s t) (h' : Deposits dir files s t')
    (hs : s.workspace.Sound) (hdots : ∀ file ∈ files, file.1 ≠ "..") :
    EndsAlike (FindsFiles s.workspace dir) t t' := by
  obtain ⟨written, skipped, htally, hmem⟩ := h.reported
  obtain ⟨written', skipped', htally', hmem'⟩ := h'.reported
  have hentry := h.tree.entry?_eq h'.tree
  have hsame : ∀ p, p ∈ written' ++ skipped' ↔ p ∈ written ++ skipped := fun p =>
    (hmem' p).trans (hmem p).symm
  have hnodup : (written ++ skipped).Nodup := List.Nodup.of_map _ (htally.nodup s.workspace.here)
  have hnodup' : (written' ++ skipped').Nodup := List.Nodup.of_map _ (htally'.nodup s.workspace.here)
  have hpath : ∀ p, p ∈ written ++ skipped → ∃ file ∈ files, p = dir.file file.1 := by
    intro p hp
    obtain ⟨file, hfile, -, rfl⟩ := (hmem p).1 hp
    exact ⟨file, hfile, rfl⟩
  have hvisited : (written' ++ skipped').Perm (written ++ skipped) :=
    (List.perm_ext_iff_of_nodup hnodup' hnodup).2 hsame
  have hwritten (hfinds : FindsFiles s.workspace dir) : written'.Perm written := by
    refine (List.perm_ext_iff_of_nodup (List.nodup_append.1 hnodup').1
      (List.nodup_append.1 hnodup).1).2 fun p => ⟨?_, ?_⟩
    · exact Deposits.mem_written hs hdots hfinds (fun l => (hentry l).symm) htally' htally
        (fun q hq => hpath q ((hsame q).1 hq)) fun q => (hsame q).1
    · exact Deposits.mem_written hs hdots hfinds hentry htally htally' hpath fun q => (hsame q).2
  refine ⟨?_, hentry, ?_, fun hfinds => ?_, fun hfinds => ?_⟩
  · rw [h'.tree.grows.here, h.tree.grows.here]
  · exact htally'.visited.trans ((hvisited.append_left _).trans htally.visited.symm)
  · rw [htally'.written_eq, htally.written_eq]
    exact (hwritten hfinds).append_left _
  · rw [htally'.skipped_eq, htally.skipped_eq]
    refine List.Perm.append_left _ ((List.perm_append_left_iff written).1 ?_)
    exact ((hwritten hfinds).symm.append_right _).trans hvisited

end Handoff.Action
