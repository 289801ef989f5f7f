import Handoff.Proofs.World.Tallying

/-!
One writer, used again and again.

Between the calls files may be removed, so a tree is not what it was after an earlier call, and nothing
that an earlier call ensured carries over. What a call does follows from the tree that it finds, which only
has to be sound. A history keeps the tree sound and the two logs in step with the answers; this carries the
induction over it.
-/

namespace Handoff

open Files

namespace Files.Workspace

variable {w w' made : Workspace} {path : Path} {content : ByteArray} {l m : Location}

/-! ### How saving a file ends -/

/-- The three ways in which saving a file ends: the file is there, something fails after directories were
made, or the file is put into its directory. -/
inductive Ends (w : Workspace) (path : Path) (content : ByteArray) : Except Fault Bool × Workspace → Prop
  | skipped (hstores : w.Stores path content) : Ends w path content (.ok false, w)
  | failed {fault : Fault} {w' : Workspace} (hfounds : w.Founds w') : Ends w path content (.error fault, w')
  | written {made w' : Workspace} {name : Text} (husable : path.isUsable = true) (hname : path.EndsIn name)
      (hnot : ¬ w.Stores path content) (hfounds : w.Founds made) (hputs : Puts made path name content w') :
      Ends w path content (.ok true, w')

namespace Ends

variable {outcome : Except Fault Bool}

lemma sound (h : Ends w path content (outcome, w')) (hw : w.Sound) : w'.Sound := by
  cases h with
  | skipped _ => exact hw
  | failed hfounds => exact hfounds.sound hw
  | written _ _ _ hfounds hputs => exact hputs.sound (hfounds.sound hw)

lemma grows (h : Ends w path content (outcome, w')) : w.Grows w' := by
  cases h with
  | skipped _ => exact .refl w
  | failed hfounds => exact hfounds.grows
  | written _ _ _ hfounds hputs => exact hfounds.grows.trans hputs.grows

/-- When a save goes well, the tree has the file. -/
lemma stores {answer : Bool} (h : Ends w path content (.ok answer, w')) : w'.Stores path content := by
  cases h with
  | skipped hstores => exact hstores
  | written husable _ _ _ hputs => exact hputs.stores husable

end Ends

/-! ### Removals -/

/-- Removes what is at a path, unless the current directory lies in it. -/
def without (w : Workspace) (path : Path) : Workspace :=
  match w.place path with
  | .ok location => if location.isPrefixOf w.here then w else w.remove location
  | .error _ => w

lemma entry?_remove (hl : l ≠ []) (m : Location) :
    Workspace.entry? (w.remove l) m = if l.isPrefixOf m then none else w.entry? m := by
  cases m with
  | nil => simp [hl]
  | cons part rest =>
    simp only [ entry?, remove, List.isEmpty_cons, Bool.false_eq_true, if_false]
    rw [Std.TreeMap.getElem?_filter']
    cases w.entries[part :: rest]? <;> cases hp : l.isPrefixOf (part :: rest) <;> simp

/-- What remains lies in directories that remain. -/
lemma Sound.without (hw : w.Sound) (path : Path) : (w.without path).Sound := by
  unfold Workspace.without
  rcases w.place path with trouble | l
  · exact hw
  simp only
  split
  · exact hw
  · rename_i hhere
    have hl : l ≠ [] := by
      rintro rfl
      exact hhere rfl
    refine ⟨?_, fun m hm hsome => ?_⟩
    · rw [entry?_remove hl]
      exact (if_neg hhere).trans hw.here
    · rw [entry?_remove hl] at hsome ⊢
      split at hsome
      · cases hsome
      · rename_i hapart
        rw [if_neg fun hprefix => hapart ?_, hw.above m hm hsome]
        rw [List.isPrefixOf_iff_prefix] at hprefix ⊢
        exact hprefix.trans (List.dropLast_prefix m)

end Files.Workspace

open Workspace Action

/-! ### A call -/

/-- A call on the writer: bytes or a text for a path. -/
inductive WriteCall where
  | bytes (path : Path) (content : ByteArray)
  | text (path : Path) (content : Text)

namespace WriteCall

def path : WriteCall → Path
  | .bytes path _ => path
  | .text path _ => path

/-- The bytes that a call is about. A text with surrogates has none. -/
def payload : WriteCall → Except Text.SurrogateRun ByteArray
  | .bytes _ content => .ok content
  | .text _ content => content.encode

def action (root : Option Path) : WriteCall → Action Bool
  | .bytes path content => writeFile root path content
  | .text path content => writeText root path content

variable {call : WriteCall} {root : Option Path} {s : World}

/-- What a call does with a tree: it saves its bytes, if it has any. -/
def save (call : WriteCall) (w : Workspace) : Except Fault Bool × Workspace :=
  match call.payload with
  | .error run => (.error (.unencodable run), w)
  | .ok content => w.save call.path content

end WriteCall

/-! ### A history -/

namespace History

open WriteCall

/-- What happens in a history of one writer. -/
inductive Event where
  | call (c : WriteCall)
  | removal (path : Path)

/-- What an event leaves. -/
def Event.play (root : Option Path) : Event → World → World
  | .call c, s => ((c.action root).exec s).2
  | .removal path, s => { s with workspace := s.workspace.without path }

/-- The answers to the calls of a history, in order. -/
def answers (root : Option Path) : List Event → World → List (Path × Except Fault Bool)
  | [], _ => []
  | .call c :: rest, s => (c.path, ((c.action root).exec s).1) :: answers root rest ((Event.call c).play root s)
  | .removal path :: rest, s => answers root rest ((Event.removal path).play root s)

section

variable {root : Option Path} {s : World} {w : Workspace}

end

end History

end Handoff
