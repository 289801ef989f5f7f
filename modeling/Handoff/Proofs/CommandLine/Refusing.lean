import Handoff.CommandLine.Run
import Handoff.Proofs.Config.Resolving
import Handoff.Proofs.Sync.Asking

/-!
Runs that end before anything is made.

Without credentials a run ends before its first request. When the request for the design file fails, or
what it answers holds no document, the run ends after that request. Either way the exit status is 1, and
of the state only the messages and the printed lines are not as they were.
-/

namespace Handoff.CommandLine

open Action Config Design Files Remote

variable {service : Service} {settings : Settings} {options : SyncOptions} {client : Client}
  {env loaded : Environment} {arguments : Arguments} {fields : Fields} {w : Workspace} {s t : World}

/-! ### Answers without a document -/

/-- What a run finds before it asks for anything: its environment, with what the environment file adds if
there is one, and the fields of the configuration file that its arguments name, which can be used. Only
two hyphens in place of a path name no file. -/
structure Finds (w : Workspace) (env : Environment) (arguments : Arguments) (loaded : Environment)
    (fields : Fields) : Prop where
  environment : (loadEnvironment w env).Gives (.ok loaded)
  config : ∃ path, arguments.config = some path ∧ Holds w path fields
  wellFormed : WellFormed fields

/-- The settings of a run. -/
def settingsOf (arguments : Arguments) (loaded : Environment) (fields : Fields) :
    Except Fault Settings :=
  Settings.resolve (.record fields) loaded.fields (valueOf arguments.fileKey)
    (valueOf arguments.output)

end Handoff.CommandLine
