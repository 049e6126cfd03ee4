import LineProbe.Run.Execute

/-!
# Transcripts of runs

A recording host notes every question that a run asks of its surroundings, with the answer that it gets.
-/

namespace LineProbe

/-- A question that a run asks of its surroundings, with the answer. -/
inductive Event where
  | now (time : Int)
  | cancelled (answer : Bool)
  | spawn (answer : Except SystemError (List Pipe))
  | ready (pipes : List Pipe)
  | read (pipe : Pipe) (bytes : List Byte)
  | wait (code : Option Int)
  | poll (code : Option Int)
  | kill
  | waitKilled
  | close (pipe : Pipe)

def noted {σ α : Type} (note : α → Event) (events : List Event) (answer : α × σ) : α × σ × List Event :=
  (answer.1, answer.2, events ++ [note answer.1])

def Host.recorded {σ : Type} (host : Host σ) : Host (σ × List Event) where
  now world := noted .now world.2 (host.now world.1)
  cancelled world := noted .cancelled world.2 (host.cancelled world.1)
  spawn interpreter arguments world := noted .spawn world.2 (host.spawn interpreter arguments world.1)
  ready asked world := noted .ready world.2 (host.ready asked world.1)
  read pipe world := noted (.read pipe) world.2 (host.read pipe world.1)
  wait world := noted .wait world.2 (host.wait world.1)
  poll world := noted .poll world.2 (host.poll world.1)
  kill world := (host.kill world.1, world.2 ++ [.kill])
  waitKilled world := (host.waitKilled world.1, world.2 ++ [.waitKilled])
  close pipe world := (host.close pipe world.1, world.2 ++ [.close pipe])

namespace Host

variable (host : Host σ) (world : σ × List Event)

theorem recorded_now :
    host.recorded.now world = ((host.now world.1).1, (host.now world.1).2, world.2 ++ [.now (host.now world.1).1]) :=
  rfl

theorem recorded_cancelled : host.recorded.cancelled world =
    ((host.cancelled world.1).1, (host.cancelled world.1).2, world.2 ++ [.cancelled (host.cancelled world.1).1]) :=
  rfl

theorem recorded_flag (heeds : Bool) : host.recorded.flag heeds world =
    ((host.flag heeds world.1).1, (host.flag heeds world.1).2,
      world.2 ++ if heeds then [.cancelled (host.flag heeds world.1).1] else []) := by
  cases heeds with
  | false => exact congrArg (fun notes => (false, world.1, notes)) (List.append_nil _).symm
  | true => rfl

theorem recorded_spawn (interpreter : Text) (arguments : List Text) :
    host.recorded.spawn interpreter arguments world =
      ((host.spawn interpreter arguments world.1).1, (host.spawn interpreter arguments world.1).2,
        world.2 ++ [.spawn (host.spawn interpreter arguments world.1).1]) :=
  rfl

theorem recorded_read (pipe : Pipe) : host.recorded.read pipe world =
    ((host.read pipe world.1).1, (host.read pipe world.1).2, world.2 ++ [.read pipe (host.read pipe world.1).1]) :=
  rfl

theorem recorded_wait : host.recorded.wait world =
    ((host.wait world.1).1, (host.wait world.1).2, world.2 ++ [.wait (host.wait world.1).1]) :=
  rfl

theorem recorded_poll : host.recorded.poll world =
    ((host.poll world.1).1, (host.poll world.1).2, world.2 ++ [.poll (host.poll world.1).1]) :=
  rfl

end Host

def transcript {σ : Type} (host : Host σ) (rounds : Nat) (program : Runnable) (timeout : Int) (interpreter : Text)
    (world : σ) : List Event :=
  (execute host.recorded rounds program timeout interpreter (world, [])).2.2

/-! ## Taking notes changes nothing -/

section Forget

variable (host : Host σ)

namespace Run

def forget (run : Run (σ × List Event)) : Run σ :=
  ⟨run.world.1, run.collector, run.pipes⟩

theorem forget_feed (run : Run (σ × List Event)) (pipe : Pipe) (text : Text) :
    (run.feed host.recorded pipe text).forget = run.forget.feed host pipe text := by
  unfold feed
  split <;> rfl

theorem forget_readPipe (run : Run (σ × List Event)) (pipe : Pipe) :
    (run.readPipe host.recorded pipe).forget = run.forget.readPipe host pipe := by
  obtain ⟨⟨world, events⟩, collector, pipes⟩ := run
  rcases answer : host.read pipe world with ⟨bytes, next⟩
  simp only [readPipe, forget, Host.recorded_read, answer]
  split
  · rfl
  · split
    · exact forget_feed host _ _ _
    · exact forget_feed host _ _ _

theorem forget_foldl (run : Run (σ × List Event)) (pipes : List Pipe) :
    (pipes.foldl (readPipe host.recorded) run).forget = pipes.foldl (readPipe host) run.forget := by
  induction pipes generalizing run with
  | nil => rfl
  | cons pipe pipes ih => rw [List.foldl_cons, List.foldl_cons, ih, forget_readPipe]

theorem forget_round (run : Run (σ × List Event)) : (run.round host.recorded).forget = run.forget.round host :=
  forget_foldl host _ _

theorem forget_pump (heeds : Bool) (deadline : Deadline) (rounds : Nat) (run : Run (σ × List Event)) :
    (pump host.recorded heeds deadline rounds run).map id forget = pump host heeds deadline rounds run.forget := by
  induction rounds generalizing run with
  | zero => rfl
  | succ rounds ih =>
    obtain ⟨⟨world, events⟩, collector, pipes⟩ := run
    -- Each answer gets a name first, so that both runs branch on the same terms.
    rcases flag : host.flag heeds world with ⟨cancelled, asked⟩
    rcases time : host.now asked with ⟨now, looked⟩
    rcases again : host.now looked with ⟨later, ready⟩
    simp only [pump, forget, Host.recorded_now, Host.recorded_flag, flag, time, again]
    split
    · rfl
    split
    · rfl
    split
    · rfl
    split
    · rfl
    · rw [ih, forget_round]
      rfl

theorem forget_ensureEnded (world : σ × List Event) :
    (ensureEnded host.recorded world).1 = ensureEnded host world.1 := by
  rcases answer : host.poll world.1 with ⟨_ | code, next⟩
  · simp only [ensureEnded, Host.recorded_poll, answer]
    rfl
  · simp only [ensureEnded, Host.recorded_poll, answer]

theorem forget_stop (rounds : Nat) (cause : StopCause) (run : Run (σ × List Event)) :
    (stop host.recorded rounds cause run).map id forget = stop host rounds cause run.forget := by
  obtain ⟨world, collector, pipes⟩ := run
  rcases ended : ensureEnded host.recorded world with ⟨killed, events⟩
  rcases answer : host.poll killed with ⟨code, polled⟩
  simp only [stop, forget, ← forget_ensureEnded, ended, Host.recorded_poll, answer]
  cases cause with
  | cancelled => rfl
  | timedOut =>
    rcases time : host.now polled with ⟨now, looked⟩
    have drained := forget_pump host false (.after now drainMillis) rounds
      ⟨(looked, events ++ [.poll code] ++ [.now now]), collector, pipes⟩
    rw [forget] at drained
    simp only [Host.recorded_now, time, ← drained]
    rcases pump host.recorded false _ rounds _ with ⟨_ | _ | _ | _ | _, left⟩ <;> rfl

theorem forget_await (deadline : Deadline) (rounds : Nat) (run : Run (σ × List Event)) :
    (await host.recorded deadline rounds run).map id forget = await host deadline rounds run.forget := by
  obtain ⟨⟨world, events⟩, collector, pipes⟩ := run
  rcases time : host.now world with ⟨now, looked⟩
  rcases answer : host.wait looked with ⟨code, waited⟩
  rcases flag : host.cancelled waited with ⟨cancelled, asked⟩
  simp only [await, forget, Host.recorded_now, Host.recorded_wait, Host.recorded_cancelled, time, answer]
  split
  · rfl
  · cases code with
    | none => exact forget_stop host rounds .timedOut _
    | some code =>
      simp only [flag]
      split
      · exact forget_stop host rounds .cancelled _
      · rfl

theorem forget_watch (deadline : Deadline) (rounds : Nat) (run : Run (σ × List Event)) :
    (watch host.recorded deadline rounds run).map id forget = watch host deadline rounds run.forget := by
  rw [watch, watch, ← forget_pump]
  rcases pump host.recorded true deadline rounds run with ⟨_ | _ | _ | _ | _, run⟩
  · exact forget_await host deadline rounds run
  · exact forget_stop host rounds .cancelled run
  · exact forget_stop host rounds .timedOut run
  · rfl
  · rfl

theorem forget_conclude (timeout : Int) (stopped : Stopped) (run : Run (σ × List Event)) :
    (conclude host.recorded timeout stopped run).map id Prod.fst = conclude host timeout stopped run.forget := by
  obtain ⟨⟨world, events⟩, collector, pipes⟩ := run
  rcases flag : host.cancelled world with ⟨cancelled, asked⟩
  rcases again : host.cancelled asked with ⟨late, left⟩
  simp only [conclude, forget, Host.recorded_cancelled, flag, again]
  split <;> rfl

end Run

theorem forget_close (pipes : List Pipe) (world : σ × List Event) :
    (pipes.foldl (fun world pipe => host.recorded.close pipe world) world).1 =
      pipes.foldl (fun world pipe => host.close pipe world) world.1 := by
  induction pipes generalizing world with
  | nil => rfl
  | cons pipe pipes ih => exact ih _

theorem forget_runProcess (rounds : Nat) (timeout : Int) (deadline : Deadline) (collector : Collector)
    (pipes : List Pipe) (world : σ × List Event) :
    (runProcess host.recorded rounds timeout deadline collector pipes world).map id Prod.fst =
      runProcess host rounds timeout deadline collector pipes world.1 := by
  have watched := Run.forget_watch host deadline rounds ⟨world, collector, pipes.map fun pipe => (pipe, .between)⟩
  rw [Run.forget] at watched
  rw [runProcess, runProcess, ← watched]
  rcases Run.watch host.recorded deadline rounds _ with ⟨cause | stopped, run⟩
  · simp only [Prod.map, Run.forget, id, forget_close]
  · have concluded := Run.forget_conclude host timeout stopped
      { run with world := pipes.foldl (fun world pipe => host.recorded.close pipe world) run.world }
    simp only [Run.forget, forget_close] at concluded
    exact concluded

theorem execute_recorded (rounds : Nat) (program : Runnable) (timeout : Int) (interpreter : Text)
    (world : σ × List Event) :
    (execute host.recorded rounds program timeout interpreter world).map id Prod.fst =
      execute host rounds program timeout interpreter world.1 := by
  obtain ⟨world, events⟩ := world
  rcases flag : host.cancelled world with ⟨cancelled, asked⟩
  rcases time : host.now asked with ⟨now, looked⟩
  simp only [execute, Host.recorded_cancelled, Host.recorded_now, Host.recorded_spawn, flag, time]
  split
  · rfl
  · split
    · rfl
    · split
      · rfl
      · rcases host.spawn interpreter _ looked with ⟨cause | pipes, spawned⟩
        · rfl
        · exact forget_runProcess host _ _ _ _ _ _

end Forget

/-! ## What a run adds to its transcript -/

def Adds (allowed : Event → Prop) (before after : List Event) : Prop :=
  ∃ new, after = before ++ new ∧ ∀ event ∈ new, allowed event

namespace Adds

theorem refl (allowed : Event → Prop) (events : List Event) : Adds allowed events events :=
  ⟨[], (List.append_nil _).symm, by simp⟩

theorem concat (h : Adds allowed before after) (ok : allowed event) : Adds allowed before (after ++ [event]) := by
  obtain ⟨new, rfl, all⟩ := h
  refine ⟨new ++ [event], List.append_assoc _ _ _, ?_⟩
  simpa [or_imp, forall_and] using ⟨all, ok⟩

theorem trans (h : Adds allowed before between) (later : Adds allowed between after) : Adds allowed before after := by
  obtain ⟨new, rfl, all⟩ := h
  obtain ⟨more, rfl, rest⟩ := later
  refine ⟨new ++ more, List.append_assoc _ _ _, ?_⟩
  simpa [or_imp, forall_and] using ⟨all, rest⟩

theorem mono (h : Adds allowed before after) (weaker : ∀ event, allowed event → wider event) :
    Adds wider before after := by
  obtain ⟨new, rfl, all⟩ := h
  exact ⟨new, rfl, fun event mem => weaker event (all event mem)⟩

theorem mem {event : Event} (h : Adds allowed before after) (mem : event ∈ before) : event ∈ after := by
  obtain ⟨new, rfl, -⟩ := h
  exact List.mem_append_left _ mem

theorem mem_before (h : Adds allowed before after) (mem : event ∈ after) (other : ¬allowed event) : event ∈ before := by
  obtain ⟨new, rfl, all⟩ := h
  exact (List.mem_append.1 mem).resolve_right fun mem => other (all event mem)

end Adds

abbrev Continues (before after : List Event) : Prop :=
  Adds (fun _ => True) before after

theorem Adds.continues (h : Adds allowed before after) : Continues before after :=
  h.mono fun _ _ => trivial

namespace Event

def IsReading : Event → Prop
  | now _ | cancelled _ | ready _ | read _ _ => True
  | _ => False

def IsStopping : Event → Prop
  | poll _ | kill | waitKilled => True
  | event => event.IsReading

def IsClosing : Event → Prop
  | close _ | cancelled _ => True
  | _ => False

theorem IsReading.isStopping {event : Event} (h : event.IsReading) : event.IsStopping := by
  cases event <;> trivial

end Event

namespace Run

variable {host : Host σ}

structure Kept (host : Host σ) (property : Run σ → Prop) : Prop where
  now : ∀ run, property run → property { run with world := (host.now run.world).2 }
  cancelled : ∀ run, property run → property { run with world := (host.cancelled run.world).2 }
  ready : ∀ asked run, property run → property { run with world := (host.ready asked run.world).2 }
  readPipe : ∀ pipe run, property run → property (run.readPipe host pipe)

namespace Kept

theorem round (kept : Kept host property) {run : Run σ} (h : property run) : property (run.round host) := by
  have all (pipes : List Pipe) {run : Run σ} (h : property run) : property (pipes.foldl (Run.readPipe host) run) := by
    induction pipes generalizing run with
    | nil => exact h
    | cons pipe pipes ih => exact ih (kept.readPipe pipe run h)
  exact all _ (kept.ready _ run h)

theorem flag (kept : Kept host property) (heeds : Bool) (h : property run) :
    property { run with world := (host.flag heeds run.world).2 } := by
  cases heeds with
  | false => exact h
  | true => exact kept.cancelled run h

theorem pump (kept : Kept host property) (heeds : Bool) (deadline : Deadline) (rounds : Nat) (h : property run) :
    property (Run.pump host heeds deadline rounds run).2 := by
  induction rounds generalizing run with
  | zero => exact h
  | succ rounds ih =>
    have asked := kept.flag heeds h
    have looked := kept.now _ asked
    have again := kept.now _ looked
    rw [Run.pump]
    split
    · exact h
    dsimp only
    split
    · exact asked
    split
    · exact looked
    split
    · exact again
    · exact ih (kept.round again)

end Kept

structure KeptStopping (host : Host σ) (property : Run σ → Prop) : Prop extends Kept host property where
  poll : ∀ run, property run → property { run with world := (host.poll run.world).2 }
  kill : ∀ run, property run → property { run with world := host.kill run.world }
  waitKilled : ∀ run, property run → property { run with world := host.waitKilled run.world }

namespace KeptStopping

theorem ensureEnded (kept : KeptStopping host property) (h : property run) :
    property { run with world := Run.ensureEnded host run.world } := by
  have polled := kept.poll run h
  rw [Run.ensureEnded]
  rcases answer : host.poll run.world with ⟨_ | code, next⟩ <;> rw [answer] at polled
  · exact kept.waitKilled _ (kept.kill _ polled)
  · exact polled

theorem stop (kept : KeptStopping host property) (rounds : Nat) (cause : StopCause) (h : property run) :
    property (Run.stop host rounds cause run).2 := by
  have polled := kept.poll _ (kept.ensureEnded h)
  rw [Run.stop]
  cases cause with
  | cancelled => exact polled
  | timedOut =>
    have drained := kept.pump false (.after (host.now (host.poll (Run.ensureEnded host run.world)).2).1 drainMillis)
      rounds (kept.now _ polled)
    dsimp only
    rcases left : Run.pump host false _ rounds _ with ⟨_ | _ | _ | _ | _, rest⟩ <;> rw [left] at drained <;> exact drained

end KeptStopping

structure KeptToEnd (host : Host σ) (property : Run σ → Prop) : Prop extends KeptStopping host property where
  wait : ∀ run, property run → property { run with world := (host.wait run.world).2 }

namespace KeptToEnd

theorem await (kept : KeptToEnd host property) (deadline : Deadline) (rounds : Nat) (h : property run) :
    property (Run.await host deadline rounds run).2 := by
  have looked := kept.now run h
  have waited := kept.wait _ looked
  rw [Run.await]
  dsimp only
  split
  · exact looked
  · split
    · next answer =>
      rw [answer] at waited
      exact kept.stop rounds .timedOut waited
    · next answer =>
      rw [answer] at waited
      have asked := kept.cancelled _ waited
      split
      · exact kept.stop rounds .cancelled asked
      · exact asked

theorem watch (kept : KeptToEnd host property) (deadline : Deadline) (rounds : Nat) (h : property run) :
    property (Run.watch host deadline rounds run).2 := by
  have pumped := kept.pump true deadline rounds h
  rw [Run.watch]
  rcases ended : Run.pump host true deadline rounds run with ⟨cause, done⟩
  rw [ended] at pumped
  cases cause with
  | endOfFile => exact kept.await deadline rounds pumped
  | cancelled => exact kept.stop rounds .cancelled pumped
  | timedOut => exact kept.stop rounds .timedOut pumped
  | farDeadline | outOfRounds => exact pumped

end KeptToEnd

abbrev events (run : Run (σ × List Event)) : List Event :=
  run.world.2

variable (host)

theorem feed_adds (run : Run (σ × List Event)) (pipe : Pipe) (text : Text) :
    Adds Event.IsReading run.events (run.feed host.recorded pipe text).events := by
  rw [feed]
  split
  · exact .refl _ _
  · exact (Adds.refl _ _).concat trivial

theorem readPipe_adds (run : Run (σ × List Event)) (pipe : Pipe) :
    Adds Event.IsReading run.events (run.readPipe host.recorded pipe).events := by
  have read : Adds Event.IsReading run.events (host.recorded.read pipe run.world).2.2 :=
    (Adds.refl _ _).concat trivial
  rw [readPipe]
  split
  · exact .refl _ _
  · dsimp only
    split
    · exact read.trans (feed_adds host _ _ _)
    · exact read.trans (feed_adds host _ _ _)

section

variable (before : List Event)

theorem kept_adds (reading : ∀ event : Event, event.IsReading → allowed event) :
    Kept host.recorded fun run => Adds allowed before run.events where
  now _ h := h.concat (reading _ trivial)
  cancelled _ h := h.concat (reading _ trivial)
  ready _ _ h := h.concat (reading _ trivial)
  readPipe pipe run h := h.trans ((readPipe_adds host run pipe).mono reading)

theorem keptStopping_adds (stopping : ∀ event : Event, event.IsStopping → allowed event) :
    KeptStopping host.recorded fun run => Adds allowed before run.events where
  toKept := kept_adds host before fun event reading => stopping event reading.isStopping
  poll _ h := h.concat (stopping _ trivial)
  kill _ h := h.concat (stopping _ trivial)
  waitKilled _ h := h.concat (stopping _ trivial)

theorem keptToEnd_adds (stopping : ∀ event : Event, event.IsStopping → allowed event)
    (waiting : ∀ code, allowed (.wait code)) : KeptToEnd host.recorded fun run => Adds allowed before run.events where
  toKeptStopping := keptStopping_adds host before stopping
  wait _ h := h.concat (waiting _)

end

theorem pump_adds (heeds : Bool) (deadline : Deadline) (rounds : Nat) (run : Run (σ × List Event)) :
    Adds Event.IsReading run.events (pump host.recorded heeds deadline rounds run).2.events :=
  (kept_adds host run.events fun _ => id).pump heeds deadline rounds (.refl _ _)

theorem stop_adds (rounds : Nat) (cause : StopCause) (run : Run (σ × List Event)) :
    Adds Event.IsStopping run.events (stop host.recorded rounds cause run).2.events :=
  (keptStopping_adds host run.events fun _ => id).stop rounds cause (.refl _ _)

theorem watch_continues (deadline : Deadline) (rounds : Nat) (run : Run (σ × List Event)) :
    Continues run.events (watch host.recorded deadline rounds run).2.events :=
  (keptToEnd_adds host run.events (fun _ _ => trivial) fun _ => trivial).watch deadline rounds (.refl _ _)

theorem conclude_adds (asks : ∀ answer, allowed (.cancelled answer)) (timeout : Int) (stopped : Stopped)
    (run : Run (σ × List Event)) : Adds allowed run.events (conclude host.recorded timeout stopped run).2.2 := by
  have asked : Adds allowed run.events (host.recorded.cancelled run.world).2.2 := (Adds.refl _ _).concat (asks _)
  rw [conclude]
  dsimp only
  split
  · exact asked
  · exact asked.concat (asks _)

end Run

theorem close_adds (host : Host σ) (pipes : List Pipe) (world : σ × List Event) :
    Adds Event.IsClosing world.2 (pipes.foldl (fun world pipe => host.recorded.close pipe world) world).2 := by
  induction pipes generalizing world with
  | nil => exact .refl _ _
  | cons pipe pipes ih =>
    have closed : Adds Event.IsClosing world.2 (host.recorded.close pipe world).2 := (Adds.refl _ _).concat trivial
    exact closed.trans (ih _)

theorem runProcess_continues (host : Host σ) (rounds : Nat) (timeout : Int) (deadline : Deadline)
    (collector : Collector) (pipes : List Pipe) (world : σ × List Event) :
    Continues world.2 (runProcess host.recorded rounds timeout deadline collector pipes world).2.2 := by
  have watched := Run.watch_continues host deadline rounds ⟨world, collector, pipes.map fun pipe => (pipe, .between)⟩
  rw [runProcess]
  rcases ended : Run.watch host.recorded deadline rounds _ with ⟨stopped, last⟩
  rw [ended] at watched
  have closed := watched.trans (close_adds host pipes last.world).continues
  cases stopped with
  | error cause => exact closed
  | ok stopped => exact closed.trans (Run.conclude_adds host (fun _ => trivial) timeout stopped _)

end LineProbe
