import LineProbe.Run.Execute

/-!
# Scripted processes

A process that is given as a script: what each read of its pipes delivers, how far the clock moves meanwhile, and how
it ends.
-/

namespace LineProbe

inductive Signal where
  | cancel
  | beginRun (document : Text)
  | close (document : Text)
deriving DecidableEq, Repr

structure Delivery where
  bytes : List Byte
  millis : Int
  signals : List Signal
  copies : Nat
deriving Repr

structure ProcessScript where
  output : Option (List Delivery)
  errors : Option (List Delivery)
  code : Int
  waitExpires : Bool
  waitCancels : Bool
  survivesKill : Bool
  exited : Bool
  spawnError : Option SystemError
deriving Repr

namespace ProcessScript

def pipes (script : ProcessScript) : List Pipe :=
  (if script.output.isSome then [.output] else []) ++ (if script.errors.isSome then [.errors] else [])

def deliveries (script : ProcessScript) : Pipe → Option (List Delivery)
  | .output => script.output
  | .errors => script.errors

def setDeliveries (script : ProcessScript) (pipe : Pipe) (items : List Delivery) : ProcessScript :=
  match pipe with
  | .output => { script with output := some items }
  | .errors => { script with errors := some items }

def silent : ProcessScript :=
  ⟨some [], some [], 0, false, false, false, false, none⟩

def reads (deliveries : Option (List Delivery)) : Nat :=
  (deliveries.getD []).foldl (fun total delivery => total + delivery.copies) 0

def rounds (script : ProcessScript) : Nat :=
  reads script.output + reads script.errors + 2

end ProcessScript

structure ProcessReport where
  interpreter : Text
  flags : List Text
  killed : Bool
  closed : List Bool
deriving DecidableEq, Repr

structure ScriptedProcess where
  interpreter : Text
  arguments : List Text
  script : ProcessScript
  code : Option Int
  killed : Bool
  closed : List Pipe
deriving Repr

def ScriptedProcess.report (process : ScriptedProcess) : ProcessReport :=
  ⟨process.interpreter, process.arguments.take interpreterFlags.length, process.killed,
    [Pipe.output, Pipe.errors].map fun pipe =>
      !process.script.pipes.contains pipe || process.closed.contains pipe⟩

/-- The surroundings of scripted runs: the clock, the scripts of the processes to come, the processes
that have been started, the latest one first, and the owner. -/
structure Stage (κ : Type) where
  clock : Int
  scripts : List ProcessScript
  processes : List ScriptedProcess
  owner : κ

namespace Stage

variable {κ : Type}

def start (scripts : List ProcessScript) (owner : κ) : Stage κ :=
  ⟨0, scripts, [], owner⟩

def nextScript (stage : Stage κ) : ProcessScript :=
  stage.scripts.headD .silent

def reports (stage : Stage κ) : List ProcessReport :=
  (stage.processes.map ScriptedProcess.report).reverse

def deliver : List Delivery → Option (Delivery × List Delivery)
  | [] => none
  | item :: items =>
    match item.copies with
    | 0 => deliver items
    | 1 => some (item, items)
    | copies + 2 => some (item, { item with copies := copies + 1 } :: items)

def onProcess (stage : Stage κ) (change : ScriptedProcess → ScriptedProcess) : Stage κ :=
  match stage.processes with
  | [] => stage
  | process :: others => { stage with processes := change process :: others }

def read (react : Signal → κ → κ) (pipe : Pipe) (stage : Stage κ) : List Byte × Stage κ :=
  match (stage.processes.head?.bind fun process => process.script.deliveries pipe).bind deliver with
  | none => ([], stage)
  | some (item, items) =>
    let stage := stage.onProcess fun process =>
      { process with script := process.script.setDeliveries pipe items }
    (item.bytes, { stage with
      clock := stage.clock + item.millis * nanosPerMilli
      owner := item.signals.foldl (fun owner signal => react signal owner) stage.owner })

def spawn (interpreter : Text) (arguments : List Text) (stage : Stage κ) :
    Except SystemError (List Pipe) × Stage κ :=
  let script := stage.nextScript
  let stage := { stage with scripts := stage.scripts.tail }
  match script.spawnError with
  | some cause => (.error cause, stage)
  | none =>
    let code := if script.exited then some script.code else none
    let process := ⟨interpreter, arguments, script, code, false, []⟩
    (.ok script.pipes, { stage with processes := process :: stage.processes })

def wait (react : Signal → κ → κ) (stage : Stage κ) : Option Int × Stage κ :=
  match stage.processes with
  | [] => (none, stage)
  | process :: others =>
    let script := process.script
    let owner := if script.waitCancels then react .cancel stage.owner else stage.owner
    if script.waitExpires then (none, { stage with owner })
    else
      let process := { process with code := some script.code }
      (some script.code, { stage with processes := process :: others, owner })

def killed (process : ScriptedProcess) : ScriptedProcess :=
  { process with code := some (-9), killed := true }

def afterKill (process : ScriptedProcess) : ScriptedProcess :=
  if process.script.survivesKill then { process with code := none } else process

def host (cancelled : κ → Bool) (react : Signal → κ → κ) : Host (Stage κ) where
  now stage := (stage.clock, stage)
  cancelled stage := (cancelled stage.owner, stage)
  spawn interpreter arguments stage := stage.spawn interpreter arguments
  ready pipes stage := (pipes, stage)
  read pipe stage := stage.read react pipe
  wait stage := stage.wait react
  poll stage := (stage.processes.head?.bind ScriptedProcess.code, stage)
  kill stage := stage.onProcess killed
  waitKilled stage := stage.onProcess afterKill
  close pipe stage := stage.onProcess fun process => { process with closed := pipe :: process.closed }

def execute (cancelled : κ → Bool) (react : Signal → κ → κ) (program : Runnable) (timeout : Int)
    (interpreter : Text) (stage : Stage κ) : Except RunError Outcome × Stage κ :=
  LineProbe.execute (host cancelled react) stage.nextScript.rounds program timeout interpreter stage

end Stage

end LineProbe
