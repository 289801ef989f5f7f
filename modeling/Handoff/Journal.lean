import Handoff.Fault

/-!
Messages about the progress of a run.

A computation that logs keeps its messages when it fails.
-/

namespace Handoff

/-- How important a message is. -/
inductive Level where
  | debug
  | info
  | warning
deriving DecidableEq

/-- The name of the level. -/
def Level.name : Level → Text
  | .debug => "DEBUG"
  | .info => "INFO"
  | .warning => "WARNING"

/-- One message. -/
structure Message where
  level : Level
  text : Text
deriving DecidableEq

/-- A computation that logs and may fail. -/
abbrev Logged (α : Type) := ExceptT Fault (StateM (List Message)) α

namespace Logged

/-- Appends a message. -/
def log (level : Level) (text : Text) : Logged Unit :=
  modify fun journal => journal ++ [⟨level, text⟩]

/-- A result without messages. -/
def ofExcept {α : Type} (result : Except Fault α) : Logged α :=
  match result with
  | .ok a => pure a
  | .error fault => throw fault

end Logged

end Handoff
