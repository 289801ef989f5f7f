import Handoff.World

/-!
Writing files only when their content changes.

A file that already holds the content is left alone and counted as skipped; any other is written,
with the directories above it.
-/

namespace Handoff.Files

/-- A path as messages show it: below the root of the output if it is there. A root that the system
cannot be asked about is nowhere. -/
def shownPath (here : Location) (root : Option Path) (path : Path) : Text :=
  match (root.filter Path.isUsable).bind fun root =>
      Location.below? (root.locate here) (path.locate here) with
  | some below => Path.text ⟨.here, below⟩
  | none => path.text

/-- Whether a path holds exactly this content. -/
def holds (w : Workspace) (path : Path) (content : ByteArray) : Except Fault Bool := do
  if ← w.doesExist path then return (← w.read path) == content else return false

/-- Makes the directory of a file and writes the file. -/
def writeContent (path : Path) (content : ByteArray) : Action Unit := do
  let world ← get
  let (result, workspace) := world.workspace.ensureDirectory path.parent
  set { world with workspace }
  Action.ofExcept result
  let workspace ← Action.ofExcept (workspace.write path content)
  modify fun world => { world with workspace }

/-- Writes a file unless it holds the content already, and says whether it wrote. -/
def writeFile (root : Option Path) (path : Path) (content : ByteArray) : Action Bool := do
  let world ← get
  if ← Action.ofExcept (holds world.workspace path content) then
    Action.log .debug ("Skipped (unchanged): " ++ path.name)
    modify fun world => { world with skipped := world.skipped ++ [path] }
    return false
  else
    writeContent path content
    Action.log .info ("✓ Written: " ++ shownPath world.workspace.here root path)
    modify fun world => { world with written := world.written ++ [path] }
    return true

/-- Writes a text unless the file holds it already. A text with surrogates is no content. -/
def writeText (root : Option Path) (path : Path) (text : Text) : Action Bool := do
  let content ← Action.ofExcept (text.encode.mapError .unencodable)
  writeFile root path content

end Handoff.Files
