import Handoff.Files.Workspace
import Handoff.Journal
import Handoff.Remote.Exchange

/-!
What a run changes: the file tree, the requests made, the messages, the lines printed, and the
files written and skipped.

An action may fail; what it changed before stays changed.
-/

namespace Handoff

open Files Remote

/-- The state of a run. -/
structure World where
  workspace : Workspace
  requests : List Request
  journal : List Message
  printed : List Text
  written : List Path
  skipped : List Path

/-- A run that has done nothing yet in a file tree. -/
def World.start (workspace : Workspace) : World := ⟨workspace, [], [], [], [], []⟩

/-- A step of a run. -/
abbrev Action (α : Type) := ExceptT Fault (StateM World) α

namespace Action

/-- A result without any change. -/
def ofExcept {α : Type} : Except Fault α → Action α
  | .ok a => pure a
  | .error fault => throw fault

/-- A computation that only logs. -/
def ofLogged {α : Type} (logged : Logged α) : Action α := do
  let world ← get
  let (result, journal) := logged.run.run world.journal
  set { world with journal }
  ofExcept result

/-- Appends a message. -/
def log (level : Level) (text : Text) : Action Unit :=
  modify fun world => { world with journal := world.journal ++ [⟨level, text⟩] }

/-- Prints a line. -/
def print (line : Text) : Action Unit :=
  modify fun world => { world with printed := world.printed ++ [line] }

/-- The outcome of an action as a value; the action's changes stay. -/
def attempt {α : Type} (action : Action α) : Action (Except Fault α) := fun world =>
  let (result, world) := action.run.run world
  (.ok result, world)

/-- Handles some faults of an action, and passes the others on. -/
def recover {α : Type} (handles : Fault → Bool) (action : Action α) (handler : Fault → Action α) :
    Action α := do
  match ← attempt action with
  | .ok a => return a
  | .error fault => if handles fault then handler fault else throw fault

/-- Makes a request and waits for the response. No service answers at an address that is no text. -/
def request (service : Service) (request : Request) : Action Response := do
  let world ← get
  set { world with requests := world.requests ++ [request] }
  let url ← ofExcept (request.url.asText .noSuchField)
  ofExcept ((service world.requests request).response? url)

/-- Runs every action to its end, then takes the results; the first fault in order is the fault of
the whole. -/
def all {α : Type} (actions : List (Action α)) : Action (List α) := do
  let results ← actions.mapM attempt
  results.mapM ofExcept

end Action

end Handoff
