import Handoff.Fault
import Handoff.Files.Path
import Std.Data.TreeMap

/-!
The file tree in which a run works.

A workspace says what is at each location below the root, which is always a directory. Operations
walk a path part by part, as the system does: every part but the last must be an existing
directory, also before two dots.
-/

namespace Handoff.Files

/-- What is at a location. -/
inductive Entry where
  | directory
  | file (content : ByteArray)

/-- A file tree with a current directory. -/
structure Workspace where
  here : Location
  entries : Std.TreeMap Location Entry

namespace Workspace

/-- What the system says of a path before it looks at the tree. -/
def checkPath (path : Path) : Except Fault Unit :=
  match path.surrogates? with
  | some found => .error (.unencodable found)
  | none => if path.hasNull then .error .nullCharacter else .ok ()

/-- What is at a location. -/
def entry? (w : Workspace) (location : Location) : Option Entry :=
  if location.isEmpty then some .directory else w.entries[location]?

/-- Puts an entry at a location. -/
def put (w : Workspace) (location : Location) (entry : Entry) : Workspace :=
  { w with entries := w.entries.insert location entry }

/-- Removes a location with everything below it. -/
def remove (w : Workspace) (location : Location) : Workspace :=
  { w with entries := w.entries.filter fun l _ => !location.isPrefixOf l }

/-- The longest part of a path that the system takes, in bytes. -/
def longestName : Nat := 255

/-- The longest path that the system takes, in bytes. -/
def longestPath : Nat := 4095

/-- Whether a path is too long as it is written. -/
def isTooLong (path : Path) : Bool := longestPath < path.text.nameSize

/-- One step of a walk, from a directory. -/
def step (w : Workspace) (location : Location) (part : Text) :
    Except FileTrouble Location :=
  match w.entry? location with
  | none => .error .missing
  | some (.file _) => .error .notADirectory
  | some .directory =>
    if longestName < part.nameSize then .error .nameTooLong else .ok (Path.step location part)

/-- Walks parts from a location. The place arrived at need not exist. -/
def walk (w : Workspace) (location : Location) : List Text → Except FileTrouble Location
  | [] => .ok location
  | part :: rest => do walk w (← w.step location part) rest

/-- The place of a path; every directory on the way must exist. -/
def place (w : Workspace) (path : Path) : Except FileTrouble Location :=
  if isTooLong path then .error .nameTooLong else w.walk (path.start w.here) path.parts

/-- What is at a path. -/
def look (w : Workspace) (path : Path) : Except FileTrouble Entry := do
  match w.entry? (← w.place path) with
  | some entry => return entry
  | none => throw .missing

/-- Whether there is anything at a path. A name or a path beyond the system's limit is a fault. -/
def doesExist (w : Workspace) (path : Path) : Except Fault Bool :=
  if !path.isUsable then .ok false
  else match w.look path with
    | .ok _ => .ok true
    | .error .nameTooLong => .error (.file .nameTooLong path.text)
    | .error _ => .ok false

/-- Whether there is a directory at a path. -/
def isDirectory (w : Workspace) (path : Path) : Bool :=
  match w.look path with
  | .ok .directory => true
  | _ => false

/-- Whether there is a file at a path. -/
def isFile (w : Workspace) (path : Path) : Bool :=
  match w.look path with
  | .ok (.file _) => true
  | _ => false

/-- The content of the file at a path. -/
def read (w : Workspace) (path : Path) : Except Fault ByteArray :=
  match w.look path with
  | .ok (.file content) => .ok content
  | .ok .directory => .error (.file .isADirectory path.text)
  | .error trouble => .error (.file trouble path.text)

/-- Makes one directory. -/
def makeDirectory (w : Workspace) (path : Path) : Except FileTrouble Workspace :=
  match path.parts.getLast? with
  | none => .error .alreadyExists
  | some last =>
    if isTooLong path then .error .nameTooLong
    else match w.place path.parent with
    | .error trouble => .error trouble
    | .ok above =>
      match w.step above last with
      | .error trouble => .error trouble
      | .ok location =>
        if ( w.entry? location).isSome || last = ".." then .error .alreadyExists
        else .ok (w.put location .directory)

/-- The greatest number of directories that are made together. -/
def mostNewDirectories : Nat := 985

/-- Makes a directory with the directories above it; `above` are its parts, reversed. What has been
made stays when a later step fails. `room` bounds the number of new directories. -/
def ensureFrom (anchor : Anchor) :
    (room : Nat) → (above : List Text) → Workspace → Except Fault Unit × Workspace
  | 0, _, w => (.error .tooDeep, w)
  | _, [], w =>
    let path : Path := ⟨anchor, []⟩
    if w.isDirectory path then (.ok (), w) else (.error (.file .missing path.text), w)
  | room + 1, last :: above, w =>
    let path : Path := ⟨anchor, (last :: above).reverse⟩
    let settle (w : Workspace) (trouble : FileTrouble) : Except Fault Unit × Workspace :=
      if w.isDirectory path then (.ok (), w) else (.error (.file trouble path.text), w)
    match w.makeDirectory path with
    | .ok w => (.ok (), w)
    | .error .missing =>
      match ensureFrom anchor room above w with
      | (.error fault, w) => (.error fault, w)
      | (.ok (), w) =>
        match w.makeDirectory path with
        | .ok w => (.ok (), w)
        | .error trouble => settle w trouble
    | .error trouble => settle w trouble

/-- Makes a directory with the directories above it, unless it is there. -/
def ensureDirectory (w : Workspace) (path : Path) : Except Fault Unit × Workspace :=
  match checkPath path with
  | .error fault => (.error fault, w)
  | .ok () => ensureFrom path.anchor mostNewDirectories path.parts.reverse w

/-- Writes a file in an existing directory, in place of one that is there. -/
def write (w : Workspace) (path : Path) (content : ByteArray) : Except Fault Workspace := do
  checkPath path
  match w.place path with
  | .error trouble => throw (.file trouble path.text)
  | .ok location =>
    match w.entry? location with
    | some .directory => throw (.file .isADirectory path.text)
    | _ => return w.put location (.file content)

/-- The files below the current directory, with their paths from there. -/
def files (w : Workspace) : List (Text × ByteArray) :=
  w.entries.toList.filterMap fun e =>
    match Location.below? w.here e.1, e.2 with
    | some below, .file content => some (Text.intercalate "/" below, content)
    | _, _ => none

/-- A tree in which there is nothing but a directory and those above it. -/
def fresh (here : Location) : Workspace :=
  ⟨here, .ofList ((List.range here.length).map fun n => (here.take (n + 1), Entry.directory))⟩

/-- Puts a file at a path, with the directories above it, and overwrites what is there. -/
def provide (w : Workspace) (path : Path) (content : ByteArray) : Workspace :=
  let w := (w.ensureDirectory path.parent).2
  match w.write path content with
  | .ok w => w
  | .error _ => w

/-- Removes what is at a path. -/
def discard (w : Workspace) (path : Path) : Workspace :=
  match w.place path with
  | .ok location => w.remove location
  | .error _ => w

end Workspace

end Handoff.Files
