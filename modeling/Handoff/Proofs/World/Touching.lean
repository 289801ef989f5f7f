import Handoff.Proofs.Files.Names
import Handoff.Proofs.World.Leading
import Handoff.Proofs.World.Replaying

/-!
Where a run saves files: at paths whose last parts are file names, each save reported as written or
as skipped.

What was saved at a path stays until the run saves under the same name again.
-/

namespace Handoff

open Files

/-- The paths at which a run has saved files, each as often as it has. -/
def World.visited (world : World) : List Path := world.written ++ world.skipped

namespace Action

/-- Only files at some paths were saved, each save reported. -/
structure Touched (paths : Path → Prop) (s t : World) : Prop where
  changed : Changed (fun n => ∃ path, paths path ∧ path.EndsIn n) s.workspace t.workspace
  visited : ∃ saved, (∀ path ∈ saved, paths path) ∧ t.visited.Perm (s.visited ++ saved)

/-- From a sound file tree only files at some paths are saved. -/
def Touches (paths : Path → Prop) (s t : World) : Prop := s.workspace.Sound → Touched paths s t

variable {paths : Path → Prop} {s t u : World}

lemma visited_of_sameFiles (h : SameFiles s t) : t.visited = s.visited := by
  rw [World.visited, World.visited, h.written, h.skipped]

lemma Touched.of_sameFiles (hs : s.workspace.Sound) (h : SameFiles s t) : Touched paths s t where
  changed := by
    rw [h.workspace]
    exact .refl hs
  visited := ⟨[], nofun, by rw [World.visited, h.written, h.skipped, List.append_nil]; rfl⟩

lemma Touched.trans (h : Touched paths s t) (h' : Touched paths t u) : Touched paths s u where
  changed := h.changed.trans h'.changed
  visited := by
    obtain ⟨saved, hsaved, hperm⟩ := h.visited
    obtain ⟨saved', hsaved', hperm'⟩ := h'.visited
    refine ⟨saved ++ saved', List.forall_mem_append.2 ⟨hsaved, hsaved'⟩, ?_⟩
    rw [← List.append_assoc]
    exact hperm'.trans (hperm.append_right _)

lemma carries_touches (paths : Path → Prop) : Carries (Touches paths) where
  same h hs := .of_sameFiles hs h
  trans h h' hs := (h hs).trans (h' (h hs).changed.sound)

variable {path : Path} {name : Text} {root : Option Path}

/-- A save that went well is reported once. -/
lemma visited_of_writeFile {content : ByteArray} {written : Bool}
    (h : (writeFile root path content).exec s = (.ok written, t)) :
    t.visited.Perm (s.visited ++ [path]) := by
  obtain ⟨journal, he⟩ := exec_writeFile root path content s
  obtain ⟨hsaved, rfl⟩ := Prod.mk.inj (he.symm.trans h)
  rw [World.visited, World.visited, hsaved]
  cases written with
  | true =>
    simp only [List.append_assoc]
    exact (List.perm_append_comm).append_left s.written
  | false => simp only [List.append_assoc]; rfl

/-- A save that failed is not reported. -/
lemma visited_of_writeFile_error {content : ByteArray} {fault : Fault}
    (h : (writeFile root path content).exec s = (.error fault, t)) : t.visited = s.visited := by
  obtain ⟨journal, he⟩ := exec_writeFile root path content s
  obtain ⟨hsaved, rfl⟩ := Prod.mk.inj (he.symm.trans h)
  rw [World.visited, hsaved]
  rfl

lemma leads_writeFile (hp : paths path) (hn : path.EndsIn name) (root : Option Path)
    (content : ByteArray) : Leads (Touches paths) (writeFile root path content) := by
  intro s hs
  rcases he : (writeFile root path content).exec s with ⟨outcome, t⟩
  obtain ⟨a, ps, rfl⟩ := hn.exists_eq
  have hsaved := HasFootprint.saved_of_exec hs hn.ne_dots he
  refine ⟨⟨hsaved.sound, hsaved.grows, hsaved.sameFiles.mono ?_⟩, ?_⟩
  · rintro n rfl
    exact ⟨_, hp, hn⟩
  · cases outcome with
    | ok written => exact ⟨[_], List.forall_mem_singleton.2 hp, visited_of_writeFile he⟩
    | error fault =>
      exact ⟨[], nofun, by rw [visited_of_writeFile_error he, List.append_nil]⟩

/-! ### Texts one after the other -/

/-- A text that was written is stored, and nothing else was saved. -/
lemma stored_of_writeText {text : Text} {written : Bool} (hs : s.workspace.Sound)
    (hn : path.EndsIn name) (h : (writeText root path text).exec s = (.ok written, t)) :
    Changed (· = name) s.workspace t.workspace ∧ t.visited.Perm (s.visited ++ [path]) ∧
      ∃ content, text.encode = .ok content ∧ t.workspace.Stores path content := by
  obtain ⟨content, u, hcontent, hwrite⟩ := exec_bind_eq_ok.1 h
  obtain ⟨hencode, rfl⟩ := exec_ofExcept_eq_ok.1 hcontent
  obtain ⟨a, ps, rfl⟩ := hn.exists_eq
  have hsaved := HasFootprint.saved_of_exec hs hn.ne_dots hwrite
  refine ⟨⟨hsaved.sound, hsaved.grows, hsaved.sameFiles⟩, visited_of_writeFile hwrite, content, ?_,
    hsaved.stores rfl⟩
  rcases he : text.encode with found | bytes
  · rw [he] at hencode
    cases hencode
  · rw [he] at hencode
    cases hencode
    rfl

/-- What is stored under a name stays when no file of that name is saved. -/
lemma Changed.stores {names : Text → Prop} {w w' : Workspace} {content : ByteArray}
    (h : Changed names w w') (hn : path.EndsIn name) (hfree : ¬ names name)
    (hstores : w.Stores path content) : w'.Stores path content := by
  obtain ⟨a, ps, rfl⟩ := hn.exists_eq
  refine hstores.keep hn.ne_dots h.grows fun l c hl hf => (h.sameFiles l c fun n hn' => ?_).2 hf
  cases hl.symm.trans hn'
  exact hfree

end Action

end Handoff
