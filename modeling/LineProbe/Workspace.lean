import LineProbe.Config.Load
import LineProbe.Report.Annotated
import LineProbe.Server.Request

/-!
# Workspaces

Where commands and requests are carried out: a folder, the environment, and the interpreter that is used if nothing
else is said.
-/

namespace LineProbe

abbrev Runner (σ : Type) :=
  Runnable → (timeout : Int) → (interpreter : Text) → σ → Except RunError Outcome × σ

structure Workspace where
  folder : Folder
  environment : Environment
  interpreter : Text

namespace Workspace

def runConfig (workspace : Workspace) (path : Text) (overrides : Settings) :
    Except Failure RunConfig := do
  let file ← Config.load workspace.folder path
  Config.run workspace.interpreter file workspace.environment overrides

def displayConfig (workspace : Workspace) (path : Text) : Except Failure DisplayConfig := do
  Config.display (← Config.load workspace.folder path)

def readSource (workspace : Workspace) (path : Text) : Except Failure Text :=
  match workspace.folder.read path with
  | .ok bytes => (Config.textOf bytes).mapError .encoding
  | .error cause => .error (.unreadable path cause)

end Workspace

def runScript {σ : Type} (runner : Runner σ) (config : RunConfig) (source : Text) (world : σ) :
    Except Failure Outcome × σ :=
  match Instrument.instrument source config.indent config.callLimit with
  | .error cause => (.error (.instrument cause), world)
  | .ok program =>
    let (result, world) :=
      runner (.generated program.generated) config.timeout config.interpreter world
    (result.mapError .run, world)

def Workspace.run {σ : Type} (workspace : Workspace) (runner : Runner σ) (overrides : Settings)
    (source : Text) (world : σ) : Except Failure Outcome × σ :=
  match workspace.runConfig Config.fileName overrides with
  | .error failure => (.error failure, world)
  | .ok config => runScript runner config source world

def RunRequest.overrides (request : RunRequest) : Settings :=
  let integer (value : Option Int) : Value := (value.map .int).getD .null
  [("indent_width", integer request.indentWidth),
   ("indent_mode", (request.indentMode.map .str).getD .null),
   ("timeout_ms", integer request.timeout),
   ("call_limit", integer request.callLimit)]

def answerRequest {σ : Type} (runner : Runner σ) (workspace : Workspace) (payload : Value)
    (world : σ) : Except Failure Response × σ :=
  match RunRequest.ofPayload payload with
  | .error errors => (.ok (.ofError (requestReport errors)), world)
  | .ok request =>
    match workspace.run runner request.overrides request.text world with
    | (.ok outcome, world) => (.ok (.ofOutcome outcome), world)
    | (.error failure, world) =>
      if failure.isFinding then (.ok (.ofError failure.message), world) else (.error failure, world)

end LineProbe
