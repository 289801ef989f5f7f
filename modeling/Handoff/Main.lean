import Handoff.CommandLine.Run

/-!
The program: it reads the command line, the environment and the files below the current directory,
runs, and puts the changed files back.

No transport to the design service is built in, so every request fails for want of a connection.
-/

namespace Handoff

open CommandLine Files Remote

/-- A service that cannot be reached. -/
def offline : Service := fun _ _ => .failure .connection "no transport to the design service"

/-- The variables of the environment that count. -/
def readEnvironment : IO Config.Environment := do
  let read (name : String) : IO Config.Environment := do
    return ((← IO.getEnv name).map fun value : String => ((name : Text), (value : Text))).toList
  return (← read "FIGMA_TOKEN") ++ (← read "FIGMA_FILE_KEY")

/-- Enters everything below a directory into a workspace. -/
partial def readDirectory (w : Workspace) (location : Location) (dir : String) : IO Workspace := do
  let mut w := w
  for entry in ← (← IO.FS.realPath dir).readDir do
    let below := location ++ [(entry.fileName : Text)]
    if ← entry.path.isDir then
      w ← readDirectory (w.put below .directory) below entry.path.toString
    else
      w := w.put below (.file (← IO.FS.readBinFile entry.path))
  return w

/-- The current directory with everything below it. -/
def readWorkspace : IO Workspace := do
  let dir := (← IO.currentDir).toString
  let here := (Path.parse dir).locate []
  readDirectory (.fresh here) here dir

/-- The place of a location outside the workspace. -/
def placeOf (location : Location) : String := (Path.text ⟨.root, location⟩).toString

/-- Puts the files that a run has changed back, with their directories. -/
def writeBack (before after : Workspace) : IO Unit := do
  for (location, entry) in after.entries do
    match entry, before.entry? location with
    | .directory, none => IO.FS.createDirAll (placeOf location)
    | .file content, some (.file old) =>
      unless content == old do IO.FS.writeBinFile (placeOf location) content
    | .file content, none => IO.FS.writeBinFile (placeOf location) content
    | _, _ => pure ()

/-- Runs with the given arguments and shows what the run shows. -/
def runOnDisk (arguments : Arguments) : IO UInt32 := do
  let workspace ← readWorkspace
  let env ← readEnvironment
  let (result, world) := (run offline env arguments).run.run (.start workspace)
  writeBack workspace world.workspace
  IO.eprint (printed (shownMessages arguments.verbose world.journal))
  IO.print (printed world.printed)
  match result with
  | .ok status => return status.toUInt32
  | .error fault =>
    IO.eprintln fault.message
    return 1

end Handoff

/-- The program. -/
def main (words : List String) : IO UInt32 := do
  match Handoff.CommandLine.parse (words.map Handoff.Text.ofString) with
  | .ok arguments => Handoff.runOnDisk arguments
  | .error stop =>
    let (output, errors, status) := Handoff.CommandLine.stopOutput stop
    IO.print output
    IO.eprint errors
    return status.toUInt32
