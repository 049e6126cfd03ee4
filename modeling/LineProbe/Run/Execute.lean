import LineProbe.Run.Collector
import LineProbe.Run.Deadline
import LineProbe.SystemError
import LineProbe.Text.Utf8

/-!
# Running a program

A run starts an interpreter, reads its two pipes until both have ended, and collects what it prints.
-/

namespace LineProbe

inductive Pipe where
  | output
  | errors
deriving DecidableEq, Repr

/-- What a run asks of its surroundings, whose state is `σ`. Only the start of a process can fail. Reading, waiting,
polling and killing are taken to give an answer, so reading breaks off with an error only where a deadline is too far
away. -/
structure Host (σ : Type) where
  now : σ → Int × σ
  cancelled : σ → Bool × σ
  spawn : (interpreter : Text) → (arguments : List Text) → σ →
    Except SystemError (List Pipe) × σ
  ready : List Pipe → σ → List Pipe × σ
  read : Pipe → σ → List Byte × σ
  wait : σ → Option Int × σ
  poll : σ → Option Int × σ
  kill : σ → σ
  waitKilled : σ → σ
  close : Pipe → σ → σ

/-- Whether the flag is set. A part of a run that does not heed the flag does not ask for it. -/
def Host.flag {σ : Type} (host : Host σ) (heeds : Bool) (world : σ) : Bool × σ :=
  if heeds then host.cancelled world else (false, world)

inductive RunState where
  | completed
  | timedOut
  | cancelled
  | crashed
deriving DecidableEq, Repr

def RunState.name : RunState → Text
  | .completed => "completed"
  | .timedOut => "timed_out"
  | .cancelled => "cancelled"
  | .crashed => "crashed"

structure Outcome where
  state : RunState
  results : List LineResult
  chunks : List Chunk
  code : Option Int
  errors : Text
deriving DecidableEq, Repr

inductive RunError where
  | violation (violation : Violation)
  | spawn (interpreter : Text) (cause : SystemError)
  | digits (cause : DigitLimitError)
  | farDeadline
  | outOfRounds
deriving Repr

def RunError.message : RunError → Text
  | .violation broken => broken.message
  | .spawn interpreter cause =>
    "could not start interpreter " ++ Text.quoted interpreter ++ ": " ++ cause.message
  | .digits cause => cause.message
  | .farDeadline => Deadline.farMessage
  | .outOfRounds => "out of rounds"

def interpreterFlags : List Text := ["-u", "-c"]

def drainMillis : Int := 500

/-! ## Reading the pipes -/

structure Run (σ : Type) where
  world : σ
  collector : Collector
  pipes : List (Pipe × Utf8.State)

namespace Run

variable {σ : Type} (host : Host σ)

def feed (run : Run σ) (pipe : Pipe) (text : Text) : Run σ :=
  if text = [] then run
  else
    let (cancelled, world) := host.cancelled run.world
    let collector :=
      match pipe with
      | .output => run.collector.feedOutput cancelled text
      | .errors => run.collector.feedErrors cancelled text
    { run with world, collector }

def readPipe (run : Run σ) (pipe : Pipe) : Run σ :=
  match run.pipes.lookup pipe with
  | none => run
  | some state =>
    let (bytes, world) := host.read pipe run.world
    if bytes = [] then
      let run := { run with world, pipes := run.pipes.filter (·.1 ≠ pipe) }
      run.feed host pipe (Utf8.finish state)
    else
      let (text, state) := Utf8.decode state bytes
      let pipes := run.pipes.map fun entry => if entry.1 = pipe then (pipe, state) else entry
      { run with world, pipes }.feed host pipe text

def round (run : Run σ) : Run σ :=
  let (ready, world) := host.ready (run.pipes.map Prod.fst) run.world
  ready.foldl (readPipe host) { run with world }

inductive PumpEnd where
  | endOfFile
  | cancelled
  | timedOut
  | farDeadline
  | outOfRounds
deriving DecidableEq, Repr

/-- Reads the pipes until both have ended, the deadline has come or the flag is set. Reading what a stopped process has
left in its pipes does not heed the flag. -/
def pump (heeds : Bool) (deadline : Deadline) : Nat → Run σ → PumpEnd × Run σ
  | 0, run => (.outOfRounds, run)
  | rounds + 1, run =>
    if run.pipes = [] then (.endOfFile, run)
    else
      let (cancelled, world) := host.flag heeds run.world
      if cancelled then (.cancelled, { run with world })
      else
        let (now, world) := host.now world
        if deadline.expired now then (.timedOut, { run with world })
        else
          let (now, world) := host.now world
          match deadline.remainingSeconds? now with
          | none => (.farDeadline, { run with world })
          | some _ => pump heeds deadline rounds ({ run with world }.round host)

/-! ## Ending a run -/

inductive StopCause where
  | timedOut
  | cancelled
deriving DecidableEq, Repr

/-- How the process came to its end: by itself or stopped, and with which exit code. -/
structure Stopped where
  cause : Option StopCause
  code : Option Int
deriving DecidableEq, Repr

def ensureEnded (world : σ) : σ :=
  match host.poll world with
  | (some _, world) => world
  | (none, world) => host.waitKilled (host.kill world)

def stop (rounds : Nat) (cause : StopCause) (run : Run σ) : Except RunError Stopped × Run σ :=
  let (code, world) := host.poll (ensureEnded host run.world)
  let run := { run with world }
  match cause with
  | .cancelled => (.ok ⟨some cause, code⟩, run)
  | .timedOut =>
    let (now, world) := host.now run.world
    match pump host false (.after now drainMillis) rounds { run with world } with
    | (.farDeadline, run) => (.error .farDeadline, run)
    | (.outOfRounds, run) => (.error .outOfRounds, run)
    | (_, run) => (.ok ⟨some cause, code⟩, run)

def await (deadline : Deadline) (rounds : Nat) (run : Run σ) : Except RunError Stopped × Run σ :=
  let (now, world) := host.now run.world
  match deadline.remainingSeconds? now with
  | none => (.error .farDeadline, { run with world })
  | some _ =>
    match host.wait world with
    | (none, world) => stop host rounds .timedOut { run with world }
    | (some code, world) =>
      let (cancelled, world) := host.cancelled world
      if cancelled then stop host rounds .cancelled { run with world }
      else (.ok ⟨none, some code⟩, { run with world })

def watch (deadline : Deadline) (rounds : Nat) (run : Run σ) : Except RunError Stopped × Run σ :=
  match pump host true deadline rounds run with
  | (.endOfFile, run) => await host deadline rounds run
  | (.cancelled, run) => stop host rounds .cancelled run
  | (.timedOut, run) => stop host rounds .timedOut run
  | (.farDeadline, run) => (.error .farDeadline, run)
  | (.outOfRounds, run) => (.error .outOfRounds, run)

def finalState (stopped : Stopped) (cancelled guardTripped : Bool) : RunState :=
  if cancelled then .cancelled
  else
    match stopped.cause with
    | some .timedOut => .timedOut
    | some .cancelled => .cancelled
    | none => if stopped.code = some 0 || guardTripped then .completed else .crashed

def conclude (timeout : Int) (stopped : Stopped) (run : Run σ) : Except RunError Outcome × σ :=
  let collector :=
    if stopped.cause = some .timedOut then run.collector.markTimedOut timeout else run.collector
  let (cancelled, world) := host.cancelled run.world
  match collector.finish cancelled stopped.code with
  | .error cause => (.error (.digits cause), world)
  | .ok (results, collector) =>
    let (cancelled, world) := host.cancelled world
    (.ok { state := finalState stopped cancelled collector.guardTripped
           results
           chunks := collector.chunks
           code := stopped.code
           errors := collector.errors }, world)

end Run

/-! ## The whole run -/

section

variable {σ : Type} (host : Host σ)

def runProcess (rounds : Nat) (timeout : Int) (deadline : Deadline) (collector : Collector)
    (pipes : List Pipe) (world : σ) : Except RunError Outcome × σ :=
  let (stopped, run) :=
    Run.watch host deadline rounds ⟨world, collector, pipes.map fun pipe => (pipe, .between)⟩
  let run := { run with world := pipes.foldl (fun world pipe => host.close pipe world) run.world }
  match stopped with
  | .error cause => (.error cause, run.world)
  | .ok stopped => Run.conclude host timeout stopped run

def cancelledOutcome : Outcome :=
  ⟨.cancelled, [], [], none, []⟩

/-- Runs a program with an interpreter, for at most `timeout` milliseconds. -/
def execute (rounds : Nat) (program : Runnable) (timeout : Int) (interpreter : Text) (world : σ) :
    Except RunError Outcome × σ :=
  let (cancelled, world) := host.cancelled world
  if cancelled then (.ok cancelledOutcome, world)
  else
    match Collector.start (some program) with
    | .error cause => (.error (.digits cause), world)
    | .ok collector =>
      if timeout < 0 then (.error (.violation (negativeTimeout (.int timeout))), world)
      else
        let (now, world) := host.now world
        match host.spawn interpreter (interpreterFlags ++ [program.text]) world with
        | (.error cause, world) => (.error (.spawn interpreter cause), world)
        | (.ok pipes, world) =>
          runProcess host rounds timeout (.after now timeout) collector pipes world

end

end LineProbe
