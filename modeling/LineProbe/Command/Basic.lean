import LineProbe.Command.Arguments
import LineProbe.Workspace

/-!
# Commands

`run` shows the values of a script beside its lines, `instrument` writes the program that is run for it, and `lsp`
starts the language server.
-/

namespace LineProbe

structure RunOptions where
  path : Text
  config : Option Text
  timeout : Option Int
  indentWidth : Option Int
  tabs : Option Bool
  callLimit : Option Int
  json : Bool
  activeLine : Option Int
deriving DecidableEq, Repr

structure InstrumentOptions where
  path : Text
  output : Option Text
  config : Option Text
  callLimit : Option Int
deriving DecidableEq, Repr

inductive Command where
  | run (options : RunOptions)
  | instrument (options : InstrumentOptions)
  | serve
  | help
deriving DecidableEq, Repr

namespace Command

/-! ## Reading a command -/

def valued (spelling name : Text) : OptionForm :=
  ⟨spelling, name, true⟩

def flag (spelling name : Text) : OptionForm :=
  ⟨spelling, name, false⟩

def helpForm : OptionForm :=
  flag "--help" "help"

def runForms : List OptionForm :=
  [valued "--config" "config", valued "--timeout-ms" "timeout", valued "--indent-width" "width",
   flag "--tabs" "mode", flag "--spaces" "mode", valued "--call-limit" "limit", flag "--json" "json",
   valued "--active-line" "active", flag "--verbose" "verbose", flag "-v" "verbose", helpForm]

def instrumentForms : List OptionForm :=
  [valued "--output" "output", valued "-o" "output", valued "--config" "config",
   valued "--call-limit" "limit", helpForm]

def script? (folder : Folder) (arguments : Arguments) : Option Text :=
  match arguments.operands with
  | [path] =>
    match folder.locate path with
    | .ok (_, .file _) => some path
    | _ => none
  | _ => none

def readRun (folder : Folder) (arguments : Arguments) : Option Command := do
  let path ← script? folder arguments
  let timeout ← arguments.integer? "timeout"
  let indentWidth ← arguments.integer? "width"
  let callLimit ← arguments.integer? "limit"
  let activeLine ← arguments.integer? "active"
  let tabs := (arguments.last? "mode").map fun given => given.spelling == "--tabs".toList
  return .run { path, config := arguments.value? "config", timeout, indentWidth, tabs, callLimit,
                json := arguments.has "json", activeLine }

def readInstrument (folder : Folder) (arguments : Arguments) : Option Command := do
  let path ← script? folder arguments
  let callLimit ← arguments.integer? "limit"
  return .instrument ⟨path, arguments.value? "output", arguments.value? "config", callLimit⟩

def readWith (forms : List OptionForm) (next : Arguments → Option Command) (arguments : List Text) :
    Option Command := do
  let arguments ← Arguments.read forms arguments
  if arguments.has "help" then some .help else next arguments

def readNamed (folder : Folder) (name : Text) (arguments : List Text) : Option Command :=
  match String.ofList name with
  | "run" => readWith runForms (readRun folder) arguments
  | "instrument" => readWith instrumentForms (readInstrument folder) arguments
  | "lsp" => readWith [helpForm] (fun given => if given.operands = [] then some .serve else none)
      arguments
  | _ => none

def read (folder : Folder) : List Text → Option Command
  | ['-', '-'] :: name :: arguments => readNamed folder name arguments
  | name :: arguments =>
    if name = helpForm.spelling then some .help else readNamed folder name arguments
  | [] => none

/-! ## Carrying out a command -/

structure Effect where
  exitCode : Nat
  output : Text
  errors : Text
  folder : Folder
  failure : Option Failure
  serves : Bool

namespace Effect

def printing (folder : Folder) (exitCode : Nat) (output : Text) : Effect :=
  ⟨exitCode, output, [], folder, none, false⟩

def usage (folder : Folder) : Effect :=
  printing folder 2 []

def failing (folder : Folder) (failure : Failure) : Effect :=
  if failure.isFinding then
    ⟨2, [], Style.plain ("clem: " ++ failure.message) ++ ['\n'], folder, none, false⟩
  else ⟨1, [], [], folder, some failure, false⟩

end Effect

def configPath (folder : Folder) (script : Text) (given : Option Text) : Text :=
  match given with
  | some path => Location.normalize path
  | none =>
    let place :=
      match folder.locate script with
      | .ok (place, _) => place
      | .error _ => []
    Text.join "/" (place.dropLast ++ [Config.fileName])

def runOverrides (options : RunOptions) : Settings :=
  let integer (value : Option Int) : Value := (value.map .int).getD .null
  let mode (tabs : Bool) : Value := .str (if tabs then IndentMode.tabs else IndentMode.spaces).name
  [("timeout_ms", integer options.timeout), ("indent_width", integer options.indentWidth),
   ("indent_mode", (options.tabs.map mode).getD .null), ("call_limit", integer options.callLimit)]

def printed (lines : List Text) : Text :=
  lines.flatMap fun line => Style.plain line ++ ['\n']

def isFailed (state : RunState) : Bool :=
  state = .crashed || state = .timedOut

def runOutput (options : RunOptions) (display : DisplayConfig) (source : Text) (outcome : Outcome) :
    Except Failure Text :=
  if options.json then .ok (printed [(Response.ofOutcome outcome).toValue.indentedJson])
  else do
    let lines ← Annotated.render (Text.splitLines source) outcome.results display options.activeLine
    return printed lines

section

variable {σ : Type} (runner : Runner σ) (workspace : Workspace)

def perform (options : RunOptions) (world : σ) : Effect × σ :=
  let folder := workspace.folder
  let config := configPath folder options.path options.config
  let prepared : Except Failure (RunConfig × DisplayConfig × Text) := do
    return (← workspace.runConfig config (runOverrides options), ← workspace.displayConfig config,
      ← workspace.readSource (Location.normalize options.path))
  match prepared with
  | .error failure => (.failing folder failure, world)
  | .ok (config, display, source) =>
    match runScript runner config source world with
    | (.error failure, world) => (.failing folder failure, world)
    | (.ok outcome, world) =>
      match runOutput options display source outcome with
      | .error failure => (.failing folder failure, world)
      | .ok output => (.printing folder (if isFailed outcome.state then 1 else 0) output, world)

end

def generate (workspace : Workspace) (options : InstrumentOptions) : Effect :=
  let folder := workspace.folder
  let config := configPath folder options.path options.config
  let limit : Value := (options.callLimit.map .int).getD .null
  let prepared : Except Failure Text := do
    let config ← workspace.runConfig config [("call_limit", limit)]
    let source ← workspace.readSource (Location.normalize options.path)
    let program ← (Instrument.instrument source config.indent config.callLimit).mapError .instrument
    return program.text
  match prepared, options.output with
  | .error failure, _ => .failing folder failure
  | .ok text, none => .printing folder 0 (Style.plain text)
  | .ok text, some path =>
    let path := Location.normalize path
    match folder.write path (Utf8.encode text) with
    | .error cause => .failing folder (.unwritable cause)
    | .ok folder => .printing folder 0 (printed ["Wrote " ++ path])

def runArguments {σ : Type} (runner : Runner σ) (workspace : Workspace) (arguments : List Text)
    (world : σ) : Effect × σ :=
  match read workspace.folder arguments with
  | none => (.usage workspace.folder, world)
  | some .help => (.printing workspace.folder 0 [], world)
  | some .serve => ({ Effect.printing workspace.folder 0 [] with serves := true }, world)
  | some (.instrument options) => (generate workspace options, world)
  | some (.run options) => perform runner workspace options world

end Command

end LineProbe
