import Handoff.Text.Utf8

/-!
Paths: an anchor and the parts between slashes. Empty parts and single dots are dropped on reading;
two dots stay, because a directory before them may be missing.

A location is a place in the file tree: the parts below the root, without dots.
-/

namespace Handoff.Files

/-- Where a path starts. Exactly two leading slashes are kept apart from one. -/
inductive Anchor where
  | here
  | root
  | doubleRoot
deriving DecidableEq

/-- A path. -/
structure Path where
  anchor : Anchor
  parts : List Text
deriving DecidableEq

/-- A place in the file tree, from the root down. -/
abbrev Location := List Text

namespace Path

/-- The parts between slashes; `part` is the one being read, reversed. -/
def splitSlashes (part : List CodePoint) : List CodePoint → List Text
  | [] => [Text.ofList part.reverse]
  | c :: rest =>
    if c = '/' then Text.ofList part.reverse :: splitSlashes [] rest
    else splitSlashes (c :: part) rest

/-- Whether a part says something about the place. -/
def isProper (part : Text) : Bool := !part.isEmpty && part != "."

/-- The anchor that a text starts with. -/
def anchorOf : List CodePoint → Anchor
  | .char '/' :: .char '/' :: .char '/' :: _ => .root
  | .char '/' :: .char '/' :: _ => .doubleRoot
  | .char '/' :: _ => .root
  | _ => .here

/-- Reads a path. -/
def parse (text : Text) : Path :=
  ⟨anchorOf text.toList, (splitSlashes [] text.toList).filter isProper⟩

/-- The path as it is written; the empty path is a dot. -/
def text (path : Path) : Text :=
  let parts := Text.intercalate "/" path.parts
  match path.anchor with
  | .here => if path.parts.isEmpty then "." else parts
  | .root => "/" ++ parts
  | .doubleRoot => "//" ++ parts

/-- A path below another; a path with an anchor of its own replaces the other. -/
def join (path below : Path) : Path :=
  match below.anchor with
  | .here => { path with parts := path.parts ++ below.parts }
  | _ => below

/-- A written path below another. -/
def child (path : Path) (below : Text) : Path := path.join (parse below)

/-- The path without its last part. -/
def parent (path : Path) : Path := { path with parts := path.parts.dropLast }

/-- The last part, empty when there is none. -/
def name (path : Path) : Text := path.parts.getLast?.getD ""

/-- Whether a part holds the null character. -/
def hasNull (path : Path) : Bool := path.parts.any fun part => part.toList.any fun c => c.toNat = 0

/-- The first surrogates that the names of a path cannot hold. -/
def surrogates? (path : Path) : Option Text.SurrogateRun := path.text.surrogatesInName?

/-- Whether the system can be asked about a path at all. -/
def isUsable (path : Path) : Bool := path.surrogates?.isNone && !path.hasNull

/-- One step from a location: two dots go up, at the root nowhere. -/
def step (location : Location) (part : Text) : Location :=
  if part = ".." then location.dropLast else location ++ [part]

/-- Where a path starts, seen from a directory. -/
def start (here : Location) (path : Path) : Location :=
  match path.anchor with
  | .here => here
  | _ => []

/-- The location of a path seen from a directory, whatever exists on the way. -/
def locate (here : Location) (path : Path) : Location := path.parts.foldl step (path.start here)

end Path

namespace Location

/-- Drops the common front of two locations. -/
def split : Location → Location → Location × Location
  | a :: as, b :: bs => if a = b then split as bs else (a :: as, b :: bs)
  | as, bs => (as, bs)

/-- The shortest path from a directory to a target: up to the common front, then down. -/
def pathFrom (start target : Location) : Path :=
  let (up, down) := split start target
  ⟨.here, List.replicate up.length (".." : Text) ++ down⟩

/-- What remains of a location below another, if it is below it. -/
def below? : (root location : Location) → Option Location
  | [], location => some location
  | a :: root, b :: location => if a = b then below? root location else none
  | _ :: _, [] => none

end Location

/-- The path from one directory to another, both seen from `here`. -/
def relativePath (here : Location) (target start : Path) : Path :=
  Location.pathFrom (start.locate here) (target.locate here)

end Handoff.Files
