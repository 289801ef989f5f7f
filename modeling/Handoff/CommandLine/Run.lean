import Handoff.CommandLine.Arguments
import Handoff.CommandLine.Usage
import Handoff.Config.Environment
import Handoff.Config.Validation
import Handoff.Sync

/-!
A run from the command line: what is printed, and the exit status.

Missing credentials, failed requests and unusable answers end a run with status 1 and a message;
other faults are left to the caller.
-/

namespace Handoff.CommandLine

open Config Remote

/-- The parts of the output that a run makes. -/
def syncOptions (arguments : Arguments) : SyncOptions where
  tokensOnly := arguments.only = some .tokens
  componentsOnly := arguments.only = some .components
  assetsOnly := arguments.only = some .assets
  twig := arguments.twig

/-- Whether a fault says that credentials are missing. -/
def lacksCredentials : Fault → Bool
  | .noToken => true
  | .noFileKey => true
  | _ => false

/-- How a failed request is reported. -/
def requestReport (fault : Fault) (fileKey : Value) : Text :=
  match fault with
  | .badStatus 403 .. => "❌ Figma API 403：Token 無效或已過期，請重新產生 FIGMA_TOKEN。"
  | .badStatus 404 .. =>
    "❌ Figma API 404：找不到檔案 '" ++ fileKey.display ++ "'，請確認 file key 是否正確。"
  | fault => "❌ Figma API 錯誤：" ++ fault.message

/-- The lines that sum up a run. -/
def summary (options : SyncOptions) (report : SyncReport) : List Text :=
  List.flatten [
    if options.runsTokens then ["   🎨 Tokens: " ++ toString report.tokenCount] else [],
    if options.runsAssets then
      ["   🖼  Assets: " ++ toString report.assetsExported ++ "/" ++
        toString report.assets.length ++ " exported"]
    else [],
    if options.runsComponents then
      ["   🧩 Components: " ++ toString report.components.length]
    else [],
    ["   📄 Files written: " ++ toString report.filesWritten ++ ", unchanged: " ++
      toString report.filesSkipped],
    if report.assetsFailed = 0 then []
    else
      ["⚠️ " ++ toString report.assetsFailed ++
        " asset(s) failed; re-run with --assets-only to retry."],
    ["✅ Figma sync completed successfully!"]]

/-- Synchronises and reports. -/
def runWith (service : Service) (settings : Settings) (options : SyncOptions) : Action Nat := do
  Action.print ("🚀 Starting Figma sync: " ++ settings.fileKey.display)
  let client : Client := ⟨settings.token, settings.timeout, service⟩
  match ← Action.attempt (sync client settings options) with
  | .ok report =>
    (summary options report).forM Action.print
    return 0
  | .error fault =>
    if fault.ofRequest then
      Action.print (requestReport fault settings.fileKey)
      return 1
    else if fault.ofContent then
      Action.print ("❌ Sync failed: " ++ fault.message)
      return 1
    else throw fault

/-- An optional text as a value. -/
def valueOf : Option Text → Value
  | some text => .text text
  | none => .null

/-- A run with arguments; the answer is the exit status. -/
def run (service : Service) (env : Environment) (arguments : Arguments) : Action Nat := do
  let workspace := (← get).workspace
  let env ← Action.ofLogged (loadEnvironment workspace env)
  let config ← match arguments.config with
    | some path => Action.ofLogged (Config.load workspace path)
    | none => throw .wrongType
  let fileKey := valueOf arguments.fileKey
  match Settings.resolve config env.fields fileKey (valueOf arguments.output) with
  | .ok settings => runWith service settings (syncOptions arguments)
  | .error fault =>
    if lacksCredentials fault then
      Action.print ("❌ " ++ fault.message)
      Action.print "   取得方式：Figma → Settings → Personal access tokens → 新增"
      return 1
    else throw fault

/-! ## What a run shows -/

/-- Lines as they are printed. -/
def printed (lines : List Text) : Text := Text.join (lines.map fun line => line ++ "\n")

/-- The messages that a run shows; details only on request. -/
def shownMessages (verbose : Bool) (journal : List Message) : List Text :=
  (journal.filter fun message => verbose || message.level != .debug).map Message.text

/-- What is printed when no run takes place: output, error output, and exit status. -/
def stopOutput : Stop → Text × Text × Nat
  | .help => (printed helpLines, "", 0)
  | .version => (printed [versionLine], "", 0)
  | .misuse error => ("", printed (misuseLines error), 2)

end Handoff.CommandLine
