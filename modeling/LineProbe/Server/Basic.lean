import LineProbe.Run.Script
import LineProbe.Server.View
import LineProbe.Session.Debounce
import LineProbe.Session.Registry
import LineProbe.Workspace

/-!
# The language server

The server runs a document once it has been left alone for a while, and shows the results of its latest run.
-/

namespace LineProbe

inductive Notice where
  | message (text : Text)
  | diagnostics (document : Text) (items : List View.Diagnostic)
  | refresh
deriving DecidableEq, Repr

structure Server where
  documents : List (Text × Text)
  registry : Registry
  debouncer : Debouncer Unit
  tasks : List Text
  notices : List Notice
deriving Repr

namespace Server

def start : Server :=
  ⟨[], .empty, .start (RunConfig.standard []).debounce, [], []⟩

def runCommand : Text := "clem.run"

def source (server : Server) (document : Text) : Text :=
  ((server.documents.find? (·.1 = document)).map Prod.snd).getD []

def setSource (server : Server) (document text : Text) : Server :=
  { server with documents := (document, text) :: server.documents }

def notify (server : Server) (notice : Notice) : Server :=
  { server with notices := server.notices ++ [notice] }

/-! ## Steps -/

def schedule (workspace : Workspace) (server : Server) (document : Text) : Except Failure Server := do
  let config ← workspace.runConfig Config.fileName []
  return { server with
    debouncer := (server.debouncer.setDelay config.debounce).schedule document () }

def advance (server : Server) (millis : Int) : Server :=
  let (fired, debouncer) := server.debouncer.advance millis
  { server with debouncer, tasks := server.tasks ++ fired.map Timer.key }

def beginRun (server : Server) (document : Text) : Ticket × Server :=
  let (ticket, registry) := server.registry.begin document
  (ticket, { server with registry })

/-- Ends a run of a document with the text `source`. The results are shown if the run may commit. -/
def finishRun (server : Server) (ticket : Ticket) (source : Text) (results : List LineResult) :
    Server :=
  let (committed, registry) := server.registry.commit ticket results
  let server := { server with registry }
  if committed then
    let items := View.diagnostics results (Text.splitLines source)
    (server.notify (.diagnostics ticket.document items)).notify .refresh
  else server

def close (server : Server) (document : Text) : Server :=
  { server with
    debouncer := server.debouncer.cancel document
    registry := server.registry.close document }.notify (.diagnostics document [])

def react (signal : Signal) (server : Server) : Server :=
  match signal with
  | .cancel => server
  | .beginRun document => (server.beginRun document).2
  | .close document => server.close document

/-! ## Runs -/

def onStage (stage : Stage Server) (change : Server → Server) : Stage Server :=
  { stage with owner := change stage.owner }

def runDocument (workspace : Workspace) (document : Text) (stage : Stage Server) :
    Except Failure Unit × Stage Server :=
  let source := stage.owner.source document
  let (ticket, server) := stage.owner.beginRun document
  let stage := { stage with owner := server }
  let runner := Stage.execute (fun server => server.registry.isCancelled ticket) react
  match workspace.run runner [] source stage with
  | (.ok outcome, stage) => (.ok (), onStage stage (finishRun · ticket source outcome.results))
  | (.error failure, stage) =>
    if failure.isFinding then (.ok (), onStage stage (notify · (.message failure.message)))
    else (.error failure, stage)

def runTasks (workspace : Workspace) (stage : Stage Server) : Stage Server :=
  stage.owner.tasks.foldl (fun stage document => (runDocument workspace document stage).2)
    (onStage stage ({ · with tasks := [] }))

/-! ## Requests -/

def hints (server : Server) (document : Text) (first last : Int) : List View.Hint :=
  View.hints (server.registry.results document) (Text.splitLines (server.source document)) first
    (some last)

def hover (server : Server) (document : Text) (line : Int) : Option Text :=
  View.hover (server.registry.results document) line

def command (workspace : Workspace) (payload : Value) (stage : Stage Server) :
    Except Failure Response × Stage Server :=
  match requirePayload runCommand payload with
  | .error broken => (.error (.run (.violation broken)), stage)
  | .ok payload => answerRequest (Stage.execute (fun _ => false) react) workspace payload stage

end Server

end LineProbe
