import LineProbe.Proofs.Splitting
import LineProbe.Proofs.Transcript
import LineProbe.Run.Script
import Mathlib.Logic.Function.Basic

/-!
# Runs that end by themselves

A run that is not cancelled and whose process exits in time is given its output in reads of any size, from two pipes
in any order.
-/

namespace LineProbe

deriving instance DecidableEq for Event

/-! ## Bytes of a pipe -/

def Event.bytes (pipe : Pipe) : Event → List Byte
  | .read other bytes => if other = pipe then bytes else []
  | _ => []

def delivered (pipe : Pipe) (events : List Event) : List Byte :=
  events.flatMap (Event.bytes pipe)

@[simp]
theorem delivered_append (pipe : Pipe) (first last : List Event) :
    delivered pipe (first ++ last) = delivered pipe first ++ delivered pipe last :=
  List.flatMap_append

theorem delivered_concat (pipe : Pipe) (events : List Event) (event : Event) :
    delivered pipe (events ++ [event]) = delivered pipe events ++ event.bytes pipe := by
  rw [delivered_append]
  simp [delivered]

theorem delivered_of_adds {allowed : Event → Prop} {before after : List Event} (h : Adds allowed before after)
    (silent : ∀ event pipe, allowed event → event.bytes pipe = []) (pipe : Pipe) :
    delivered pipe after = delivered pipe before := by
  obtain ⟨new, rfl, all⟩ := h
  have none : delivered pipe new = [] := List.flatMap_eq_nil_iff.2 fun event mem => silent event pipe (all event mem)
  rw [delivered_append, none, List.append_nil]

/-! ## The collector -/

namespace Collector

def told (collector : Collector) (texts : Pipe → Text) : Collector :=
  { collector with
    splitter := .after (texts .output)
    chunks := (splitTagged (texts .output)).dropLast.map (⟨·, false⟩)
    errors := texts .errors }

def tell (collector : Collector) (pipe : Pipe) (text : Text) : Collector :=
  match pipe with
  | .output => collector.feedOutput false text
  | .errors => collector.feedErrors false text

theorem tell_told {collector : Collector} (running : collector.results = none) (texts : Pipe → Text) (pipe : Pipe)
    (text : Text) :
    (collector.told texts).tell pipe text = collector.told (Function.update texts pipe (texts pipe ++ text)) := by
  have accepts : (collector.told texts).accepts false := by simp [Collector.accepts, told, running]
  cases pipe with
  | output =>
    obtain ⟨parts, fed⟩ := Prod.mk.inj (Splitter.feed_after (texts .output) text)
    rw [tell, feedOutput, if_pos accepts]
    simp only [told, Function.update_self, ← parts, ← fed, List.map_append]
    simp [Function.update]
  | errors =>
    rw [tell, feedErrors, if_pos accepts]
    simp [told, Function.update]

end Collector

/-! ## Reading -/

variable {start : Collector}

section

theorem lookup_cons_eq_ite [DecidableEq α] (entry : α × β) (entries : List (α × β)) (other : α) :
    (entry :: entries).lookup other = if other = entry.1 then some entry.2 else entries.lookup other := by
  rw [List.lookup_cons]
  by_cases here : other = entry.1
  · rw [if_pos here, beq_iff_eq.2 here]
  · rw [if_neg here, beq_eq_false_iff_ne.2 here]

theorem lookup_filter_ne (pipes : List (Pipe × Utf8.State)) (pipe other : Pipe) :
    (pipes.filter (·.1 ≠ pipe)).lookup other = if other = pipe then none else pipes.lookup other := by
  induction pipes with
  | nil => simp
  | cons entry pipes ih =>
    by_cases removed : entry.1 = pipe
    · rw [List.filter_cons_of_neg (by simp [removed]), ih, lookup_cons_eq_ite, removed]
      by_cases here : other = pipe <;> simp [here]
    · rw [List.filter_cons_of_pos (by simp [removed]), lookup_cons_eq_ite, lookup_cons_eq_ite, ih]
      by_cases here : other = entry.1 <;> simp [here, removed]

theorem lookup_map_set (pipes : List (Pipe × Utf8.State)) (pipe other : Pipe) (state : Utf8.State) :
    (pipes.map fun entry => if entry.1 = pipe then (pipe, state) else entry).lookup other =
      if other = pipe then (pipes.lookup pipe).map fun _ => state else pipes.lookup other := by
  induction pipes with
  | nil => simp
  | cons entry pipes ih =>
    rw [List.map_cons, lookup_cons_eq_ite, lookup_cons_eq_ite, lookup_cons_eq_ite, ih]
    by_cases set : entry.1 = pipe
    · by_cases here : other = pipe <;> simp [here, set]
    · by_cases here : other = pipe <;> simp [here, set, Ne.symm set]

namespace Run

def heard (run : Run (σ × List Event)) (pipe : Pipe) : Text :=
  match run.pipes.lookup pipe with
  | some _ => (Utf8.decode .between (delivered pipe run.events)).1
  | none => Utf8.decodeAll (delivered pipe run.events)

def Decodes (run : Run (σ × List Event)) : Prop :=
  ∀ pipe state, run.pipes.lookup pipe = some state → state = (Utf8.decode .between (delivered pipe run.events)).2

structure Hears (start : Collector) (run : Run (σ × List Event)) : Prop where
  decodes : run.Decodes
  collector : run.collector = start.told run.heard

theorem heard_congr {run next : Run (σ × List Event)} (pipes : next.pipes = run.pipes)
    (bytes : ∀ pipe, delivered pipe next.events = delivered pipe run.events) : next.heard = run.heard := by
  funext pipe
  rw [heard, heard, pipes, bytes]

theorem Decodes.congr {run next : Run (σ × List Event)} (h : run.Decodes) (pipes : next.pipes = run.pipes)
    (bytes : ∀ pipe, delivered pipe next.events = delivered pipe run.events) : next.Decodes := by
  intro pipe state found
  rw [bytes]
  exact h pipe state (pipes ▸ found)

theorem Hears.of_silent {run next : Run (σ × List Event)} (h : Hears start run) (pipes : next.pipes = run.pipes)
    (collector : next.collector = run.collector)
    (bytes : ∀ pipe, delivered pipe next.events = delivered pipe run.events) : Hears start next :=
  ⟨h.decodes.congr pipes bytes, by rw [collector, heard_congr pipes bytes, h.collector]⟩

theorem Decodes.ended {run : Run (σ × List Event)} (h : run.Decodes) {state : Utf8.State}
    (found : run.pipes.lookup pipe = some state) {world : σ × List Event}
    (same : ∀ other, delivered other world.2 = delivered other run.events) :
    Decodes { run with world, pipes := run.pipes.filter (·.1 ≠ pipe) } ∧
      heard { run with world, pipes := run.pipes.filter (·.1 ≠ pipe) } =
        Function.update run.heard pipe (run.heard pipe ++ Utf8.finish state) := by
  obtain rfl := h pipe state found
  refine ⟨fun other state left => ?_, funext fun other => ?_⟩
  · rw [lookup_filter_ne] at left
    split at left
    · cases left
    · rw [same]
      exact h other state left
  · rw [heard, lookup_filter_ne, same]
    by_cases here : other = pipe
    · -- `decodeAll` is `decode` and, for the bytes that are still held back, `finish`.
      subst here
      rw [if_pos rfl, Function.update_self, heard, found]
      rfl
    · rw [if_neg here, Function.update_of_ne here, heard]

theorem Decodes.read {run : Run (σ × List Event)} (h : run.Decodes) {state : Utf8.State}
    (found : run.pipes.lookup pipe = some state) {world : σ × List Event} {bytes : List Byte}
    (came : ∀ other, delivered other world.2 = delivered other run.events ++ if pipe = other then bytes else []) :
    let pipes := run.pipes.map fun entry => if entry.1 = pipe then (pipe, (Utf8.decode state bytes).2) else entry
    Decodes { run with world, pipes } ∧
      heard { run with world, pipes } =
        Function.update run.heard pipe (run.heard pipe ++ (Utf8.decode state bytes).1) := by
  obtain rfl := h pipe state found
  refine ⟨fun other state left => ?_, funext fun other => ?_⟩
  · rw [lookup_map_set] at left
    rw [came]
    split at left
    · next here =>
      subst here
      rw [found, Option.map_some, Option.some.injEq] at left
      rw [if_pos rfl, Utf8.decode_append, ← left]
    · next differ =>
      rw [if_neg (Ne.symm differ), List.append_nil]
      exact h other state left
  · rw [heard, lookup_map_set, came]
    by_cases here : other = pipe
    · subst here
      rw [if_pos rfl, if_pos rfl, found, Function.update_self, heard, found, Utf8.decode_append]
      rfl
    · rw [if_neg here, if_neg (Ne.symm here), Function.update_of_ne here, List.append_nil, heard]

variable (host : Host σ)

theorem feed_pipes (run : Run σ) (pipe : Pipe) (text : Text) : (run.feed host pipe text).pipes = run.pipes := by
  rw [feed]
  split <;> rfl

theorem feed_delivered (run : Run (σ × List Event)) (pipe other : Pipe) (text : Text) :
    delivered other (run.feed host.recorded pipe text).events = delivered other run.events := by
  rw [feed]
  split
  · rfl
  · exact (delivered_concat _ _ _).trans (List.append_nil _)

theorem feed_told (running : start.results = none) {run : Run (σ × List Event)} {texts : Pipe → Text}
    (told : run.collector = start.told texts) (pipe : Pipe) (text : Text)
    (uncancelled : Event.cancelled true ∉ (run.feed host.recorded pipe text).events) :
    (run.feed host.recorded pipe text).collector = start.told (Function.update texts pipe (texts pipe ++ text)) := by
  rw [feed] at uncancelled ⊢
  split
  · next empty => simp [empty, told]
  · next nonempty =>
    rw [if_neg nonempty] at uncancelled
    have flag : (host.cancelled run.world.1).1 = false := by
      by_contra set
      exact uncancelled (List.mem_append_right _ (by simp_all))
    simp only [Host.recorded_cancelled, flag, told, ← Collector.tell_told running]
    rfl

theorem feed_hears (running : start.results = none) {run : Run (σ × List Event)} {texts : Pipe → Text} {text : Text}
    (told : run.collector = start.told texts)
    (heard : run.Decodes ∧ run.heard = Function.update texts pipe (texts pipe ++ text))
    (uncancelled : Event.cancelled true ∉ (run.feed host.recorded pipe text).events) :
    Hears start (run.feed host.recorded pipe text) := by
  have pipes := feed_pipes host.recorded run pipe text
  have bytes (other : Pipe) := feed_delivered host run pipe other text
  refine ⟨heard.1.congr pipes bytes, ?_⟩
  rw [heard_congr pipes bytes, heard.2, feed_told host running told pipe text uncancelled]

theorem readPipe_hears (running : start.results = none) {run : Run (σ × List Event)} (h : Hears start run) (pipe : Pipe)
    (uncancelled : Event.cancelled true ∉ (run.readPipe host.recorded pipe).events) :
    Hears start (run.readPipe host.recorded pipe) := by
  rw [readPipe] at uncancelled ⊢
  cases found : run.pipes.lookup pipe with
  | none => exact h
  | some state =>
    rcases answer : host.recorded.read pipe run.world with ⟨bytes, world⟩
    have came (other : Pipe) : delivered other world.2 =
        delivered other run.events ++ if pipe = other then bytes else [] := by
      obtain ⟨rfl, rfl⟩ := Prod.mk.inj answer
      exact delivered_concat _ _ _
    simp only [found, answer] at uncancelled ⊢
    by_cases ends : bytes = []
    · rw [if_pos ends] at uncancelled ⊢
      subst ends
      exact feed_hears host running h.collector (h.decodes.ended found fun other => by simp [came]) uncancelled
    · rw [if_neg ends] at uncancelled ⊢
      exact feed_hears host running h.collector (h.decodes.read found came) uncancelled

theorem Hears.asked {run : Run (σ × List Event)} {world : σ} {event : Event}
    (h : Event.cancelled true ∉ run.events → Hears start run) (silent : ∀ pipe, event.bytes pipe = [])
    (uncancelled : Event.cancelled true ∉ run.events ++ [event]) :
    Hears start { run with world := (world, run.events ++ [event]) } := by
  refine (h fun mem => uncancelled (List.mem_append_left _ mem)).of_silent rfl rfl fun pipe => ?_
  rw [delivered_concat, silent, List.append_nil]

theorem kept_hears (running : start.results = none) :
    Kept host.recorded fun run => Event.cancelled true ∉ run.events → Hears start run where
  now _ h := Hears.asked h fun _ => rfl
  cancelled _ h := Hears.asked h fun _ => rfl
  ready _ _ h := Hears.asked h fun _ => rfl
  readPipe pipe run h uncancelled :=
    readPipe_hears host running (h fun mem => uncancelled ((readPipe_adds host run pipe).mem mem)) pipe uncancelled

theorem pipes_of_pump_endOfFile {host : Host σ} {rounds : Nat} {run last : Run σ}
    (h : pump host heeds deadline rounds run = (.endOfFile, last)) : last.pipes = [] := by
  induction rounds generalizing run with
  | zero => cases h
  | succ rounds ih =>
    rw [pump] at h
    split at h
    · next ended =>
      cases h
      exact ended
    dsimp only at h
    split at h
    · cases h
    split at h
    · cases h
    split at h
    · cases h
    · exact ih h

theorem await_of_exit {run last : Run (σ × List Event)} {rounds : Nat} {stopped : Except RunError Stopped}
    (awaited : await host.recorded deadline rounds run = (stopped, last)) (fresh : Event.wait (some code) ∉ run.events)
    (exits : Event.wait (some code) ∈ last.events) (uncancelled : Event.cancelled true ∉ last.events) :
    stopped = .ok ⟨none, some code⟩ ∧ ∃ world now, last =
      { run with world := (world, run.events ++ [.now now] ++ [.wait (some code)] ++ [.cancelled false]) } := by
  obtain ⟨⟨world, notes⟩, collector, pipes⟩ := run
  rcases time : host.now world with ⟨now, looked⟩
  rcases answer : host.wait looked with ⟨exit, waited⟩
  rcases flag : host.cancelled waited with ⟨cancelled, asked⟩
  simp only [await, Host.recorded_now, Host.recorded_wait, Host.recorded_cancelled, time, answer] at awaited
  split at awaited
  · obtain ⟨-, rfl⟩ := Prod.mk.inj awaited
    exact absurd (by simpa [events] using exits) fresh
  cases exit with
  | none =>
    -- The wait gave no code, and a process that is stopped is never waited for again.
    have stops := stop_adds host rounds .timedOut ⟨(waited, notes ++ [.now now] ++ [.wait none]), collector, pipes⟩
    rw [show stop host.recorded rounds .timedOut _ = (stopped, last) from awaited] at stops
    have mem := stops.mem_before exits id
    exact absurd (by simpa [events] using mem) fresh
  | some exit =>
    simp only [flag] at awaited
    cases cancelled with
    | true =>
      have stops := stop_adds host rounds .cancelled
        ⟨(asked, notes ++ [.now now] ++ [.wait (some exit)] ++ [.cancelled true]), collector, pipes⟩
      rw [show stop host.recorded rounds .cancelled _ = (stopped, last) from awaited] at stops
      exact absurd (stops.mem (by simp [events])) uncancelled
    | false =>
      obtain ⟨rfl, rfl⟩ := Prod.mk.inj awaited
      obtain rfl : code = exit := by simpa [events, fresh] using exits
      exact ⟨rfl, asked, now, rfl⟩

theorem watch_of_exit (running : start.results = none) {run last : Run (σ × List Event)} (h : Hears start run)
    {rounds : Nat} {stopped : Except RunError Stopped}
    (watched : watch host.recorded deadline rounds run = (stopped, last)) (fresh : Event.wait (some code) ∉ run.events)
    (exits : Event.wait (some code) ∈ last.events) (uncancelled : Event.cancelled true ∉ last.events) :
    stopped = .ok ⟨none, some code⟩ ∧ Hears start last ∧ last.pipes = [] := by
  have pumped := pump_adds host true deadline rounds run
  have hears : Event.cancelled true ∉ (pump host.recorded true deadline rounds run).2.events →
      Hears start (pump host.recorded true deadline rounds run).2 :=
    (kept_hears host running).pump true deadline rounds fun _ => h
  rw [watch] at watched
  rcases ended : pump host.recorded true deadline rounds run with ⟨cause, done⟩
  rw [ended] at pumped hears watched
  -- Neither reading nor stopping waits for a code, so the run must have gone through `await`.
  have unasked : Event.wait (some code) ∉ done.events := fun mem => fresh (pumped.mem_before mem id)
  have unstopped (cause : StopCause) : stop host.recorded rounds cause done ≠ (stopped, last) := by
    intro same
    have stops := stop_adds host rounds cause done
    rw [same] at stops
    exact unasked (stops.mem_before exits id)
  cases cause with
  | endOfFile =>
    obtain ⟨rfl, world, now, rfl⟩ := await_of_exit host watched unasked exits uncancelled
    have uncancelled : Event.cancelled true ∉ done.events := fun mem => uncancelled (by simp_all [events])
    have closed : done.pipes = [] := pipes_of_pump_endOfFile ended
    refine ⟨rfl, (hears uncancelled).of_silent rfl rfl fun pipe => ?_, closed⟩
    simp [delivered, Event.bytes, events]
  | cancelled | timedOut => exact absurd watched (unstopped _)
  | farDeadline | outOfRounds =>
    obtain ⟨-, rfl⟩ := Prod.mk.inj watched
    exact absurd exits unasked

end Run

end

/-! ## The outcome -/

def outcomeOf (start : Collector) (bytes : Pipe → List Byte) (code : Int) : Except RunError Outcome :=
  match (start.told fun pipe => Utf8.decodeAll (bytes pipe)).finish false (some code) with
  | .error cause => .error (.digits cause)
  | .ok (results, collector) =>
    .ok { state := Run.finalState ⟨none, some code⟩ false collector.guardTripped
          results
          chunks := collector.chunks
          code := some code
          errors := collector.errors }

section

variable (host : Host σ)

theorem Run.conclude_of_exit {run : Run (σ × List Event)} (h : Hears start run) (ended : run.pipes = []) {timeout : Int}
    {outcome : Except RunError Outcome} {world : σ × List Event}
    (concluded : conclude host.recorded timeout ⟨none, some code⟩ run = (outcome, world))
    (uncancelled : Event.cancelled true ∉ world.2) :
    outcome = outcomeOf start (fun pipe => delivered pipe run.events) code := by
  have told : run.collector = start.told fun pipe => Utf8.decodeAll (delivered pipe run.events) := by
    rw [h.collector]
    congr 1
    funext pipe
    rw [heard, ended]
    rfl
  rw [outcomeOf, ← told]
  obtain ⟨⟨world, notes⟩, collector, pipes⟩ := run
  rcases flag : host.cancelled world with ⟨cancelled, asked⟩
  rcases again : host.cancelled asked with ⟨late, left⟩
  simp only [conclude, Host.recorded_cancelled, flag, again, reduceCtorEq, if_false] at concluded
  cases done : collector.finish cancelled (some code) with
  | error cause =>
    rw [done] at concluded
    obtain ⟨rfl, rfl⟩ := Prod.mk.inj concluded
    cases cancelled with
    | true => simp at uncancelled
    | false => rw [done]
  | ok report =>
    obtain ⟨results, finished⟩ := report
    rw [done] at concluded
    obtain ⟨rfl, rfl⟩ := Prod.mk.inj concluded
    cases cancelled with
    | true => simp at uncancelled
    | false =>
      cases late with
      | true => simp at uncancelled
      | false => rw [done]

theorem Run.hears_opened (untold : start.told (fun _ => []) = start) (pipes : List Pipe) {world : σ × List Event}
    (silent : ∀ pipe, delivered pipe world.2 = []) :
    Hears start ⟨world, start, pipes.map fun pipe => (pipe, .between)⟩ where
  decodes pipe state found := by
    dsimp only at found
    obtain ⟨before, after, whole, -⟩ := List.lookup_eq_some_iff.1 found
    have mem : (pipe, state) ∈ pipes.map fun pipe => (pipe, Utf8.State.between) := by simp [whole]
    obtain ⟨other, -, same⟩ := List.mem_map.1 mem
    rw [silent, ← (Prod.mk.inj same).2]
    rfl
  collector := by
    have nothing : heard ⟨world, start, pipes.map fun pipe => (pipe, .between)⟩ = fun _ => [] := by
      funext pipe
      rw [heard, silent]
      split <;> rfl
    rw [nothing, untold]

theorem runProcess_of_exit (running : start.results = none) (untold : start.told (fun _ => []) = start) {rounds : Nat}
    {timeout : Int} {pipes : List Pipe} {world final : σ × List Event} {outcome : Except RunError Outcome}
    (ran : runProcess host.recorded rounds timeout deadline start pipes world = (outcome, final))
    (silent : ∀ pipe, delivered pipe world.2 = []) (fresh : Event.wait (some code) ∉ world.2)
    (exits : Event.wait (some code) ∈ final.2) (uncancelled : Event.cancelled true ∉ final.2) :
    outcome = outcomeOf start (fun pipe => delivered pipe final.2) code := by
  have hears := Run.hears_opened untold pipes silent
  have quiet : ∀ event pipe, Event.IsClosing event → event.bytes pipe = [] := by
    intro event pipe closing
    cases event <;> trivial
  rw [runProcess] at ran
  rcases watched : Run.watch host.recorded deadline rounds _ with ⟨stopped, last⟩
  have closes := close_adds host pipes last.world
  rw [watched] at ran
  dsimp only at ran
  generalize pipes.foldl (fun world pipe => host.recorded.close pipe world) last.world = closed at closes ran
  -- The pipes are closed whether or not the run failed, and closing brings no bytes.
  cases stopped with
  | error cause =>
    obtain ⟨-, rfl⟩ := Prod.mk.inj ran
    have exited := Run.watch_of_exit host running hears watched fresh (closes.mem_before exits id)
      fun mem => uncancelled (closes.mem mem)
    cases exited.1
  | ok stopped =>
    have concluded : Run.conclude host.recorded timeout stopped { last with world := closed } = (outcome, final) := ran
    have concludes : Adds Event.IsClosing closed.2 _ :=
      Run.conclude_adds host (fun _ => trivial) timeout stopped { last with world := closed }
    rw [concluded] at concludes
    have later := closes.trans concludes
    obtain ⟨same, hears, ended⟩ := Run.watch_of_exit host running hears watched fresh (later.mem_before exits id)
      fun mem => uncancelled (later.mem mem)
    obtain rfl := Except.ok.inj same
    have still : Run.Hears start { last with world := closed } :=
      hears.of_silent rfl rfl (delivered_of_adds closes quiet)
    rw [Run.conclude_of_exit host still ended concluded uncancelled]
    congr 1
    funext pipe
    exact (delivered_of_adds concludes quiet pipe).symm

theorem Collector.told_start {program : Option Runnable} (h : Collector.start program = .ok start) :
    start.results = none ∧ start.told (fun _ => []) = start := by
  cases program with
  | none =>
    cases h
    exact ⟨rfl, rfl⟩
  | some program =>
    simp only [Collector.start, bind, Except.bind] at h
    split at h
    · cases h
    · cases h
      exact ⟨rfl, rfl⟩

theorem execute_eq_outcomeOf {rounds : Nat} {program : Runnable} {timeout : Int} {interpreter : Text} {world : σ}
    (uncancelled : Event.cancelled true ∉ transcript host rounds program timeout interpreter world)
    (exits : Event.wait (some code) ∈ transcript host rounds program timeout interpreter world) :
    ∃ start, Collector.start (some program) = .ok start ∧
      (execute host rounds program timeout interpreter world).1 =
        outcomeOf start
          (fun pipe => delivered pipe (transcript host rounds program timeout interpreter world)) code := by
  have same := congrArg Prod.fst (execute_recorded host rounds program timeout interpreter (world, []))
  rw [transcript] at uncancelled exits ⊢
  rw [← same]
  rcases ran : execute host.recorded rounds program timeout interpreter (world, []) with ⟨outcome, final⟩
  rw [ran] at uncancelled exits
  rcases flag : host.cancelled world with ⟨cancelled, asked⟩
  rcases time : host.now asked with ⟨now, looked⟩
  rcases answer : host.spawn interpreter (interpreterFlags ++ [program.text]) looked with ⟨spawned, next⟩
  simp only [execute, Host.recorded_cancelled, Host.recorded_now, Host.recorded_spawn, flag, time, answer] at ran
  -- A run that ends before its process has started has not waited for one.
  split at ran
  · obtain ⟨-, rfl⟩ := Prod.mk.inj ran
    simp at exits
  split at ran
  · obtain ⟨-, rfl⟩ := Prod.mk.inj ran
    simp at exits
  split at ran
  · obtain ⟨-, rfl⟩ := Prod.mk.inj ran
    simp at exits
  cases spawned with
  | error cause =>
    obtain ⟨-, rfl⟩ := Prod.mk.inj ran
    simp at exits
  | ok pipes =>
    next start started _ =>
    obtain ⟨running, untold⟩ := Collector.told_start started
    refine ⟨start, started, runProcess_of_exit host running untold ran (fun pipe => ?_) (by simp) exits uncancelled⟩
    simp [delivered, Event.bytes]

end

/-- A transcript without a cancellation in which the process, if an attempt to start it is made, gives the bytes
through its pipes and exits with the code in time. -/
structure RunsThrough (bytes : Pipe → List Byte) (code : Int) (events : List Event) : Prop where
  uncancelled : Event.cancelled true ∉ events
  exits : ∀ answer, Event.spawn answer ∈ events →
    Event.wait (some code) ∈ events ∧ ∀ pipe, delivered pipe events = bytes pipe

def startError? (program : Runnable) (timeout : Int) : Option RunError :=
  match Collector.start (some program) with
  | .error cause => some (.digits cause)
  | .ok _ => if timeout < 0 then some (.violation (negativeTimeout (.int timeout))) else none

section

theorem flag_of_uncancelled
    (uncancelled : Event.cancelled true ∉ transcript host rounds program timeout interpreter world) :
    (host.cancelled world).1 = false := by
  by_contra flag
  rw [Bool.not_eq_false] at flag
  simp [transcript, execute, Host.recorded_cancelled, flag] at uncancelled

theorem execute_of_startError
    (uncancelled : Event.cancelled true ∉ transcript host rounds program timeout interpreter world) {cause : RunError}
    (h : startError? program timeout = some cause) :
    (execute host rounds program timeout interpreter world).1 = .error cause := by
  have flag := flag_of_uncancelled uncancelled
  cases started : Collector.start (some program) with
  | error fault =>
    simp only [startError?, started, Option.some.injEq] at h
    simp only [execute, flag, Bool.false_eq_true, if_false, started, h]
  | ok start =>
    simp only [startError?, started, Option.ite_none_right_eq_some, Option.some.injEq] at h
    simp only [execute, flag, Bool.false_eq_true, if_false, started, h.1, if_true, h.2]

theorem spawn_mem_transcript
    (uncancelled : Event.cancelled true ∉ transcript host rounds program timeout interpreter world)
    (h : startError? program timeout = none) :
    ∃ answer, Event.spawn answer ∈ transcript host rounds program timeout interpreter world := by
  have flag := flag_of_uncancelled uncancelled
  rw [startError?] at h
  split at h
  · cases h
  next start started =>
    split at h
    · cases h
    next nonnegative =>
      simp only [transcript, execute, Host.recorded_cancelled, Host.recorded_spawn, flag, Bool.false_eq_true, if_false,
        started, nonnegative]
      rcases answer : host.spawn interpreter _ _ with ⟨spawned, next⟩
      refine ⟨spawned, ?_⟩
      cases spawned with
      | error cause => simp
      | ok pipes => exact (runProcess_continues host ..).mem (by simp)

end

/-- The outcome of a run does not depend on how its output is cut into reads, nor on the order in which its
pipes are read. -/
theorem outcome_of_same_bytes {σ τ : Type} (host : Host σ) (host' : Host τ) (rounds rounds' : Nat) (program : Runnable)
    (timeout : Int) (interpreter : Text) (world : σ) (world' : τ) (bytes : Pipe → List Byte) (code : Int)
    (first : RunsThrough bytes code (transcript host rounds program timeout interpreter world))
    (second : RunsThrough bytes code (transcript host' rounds' program timeout interpreter world')) :
    (execute host rounds program timeout interpreter world).1 =
      (execute host' rounds' program timeout interpreter world').1 := by
  cases failed : startError? program timeout with
  | some cause =>
    rw [execute_of_startError first.uncancelled failed, execute_of_startError second.uncancelled failed]
  | none =>
    obtain ⟨answer, spawned⟩ := spawn_mem_transcript first.uncancelled failed
    obtain ⟨answer', spawned'⟩ := spawn_mem_transcript second.uncancelled failed
    obtain ⟨exits, came⟩ := first.exits answer spawned
    obtain ⟨exits', came'⟩ := second.exits answer' spawned'
    obtain ⟨start, started, outcome⟩ := execute_eq_outcomeOf host first.uncancelled exits
    obtain ⟨start', started', outcome'⟩ := execute_eq_outcomeOf host' second.uncancelled exits'
    obtain rfl : start = start' := Except.ok.inj (started.symm.trans started')
    rw [outcome, outcome', funext came, funext came']

def printing (output errors : List (List Byte)) : Stage Bool :=
  .start [{ ProcessScript.silent with
    output := some (output.map (⟨·, 1, [], 1⟩))
    errors := some (errors.map (⟨·, 1, [], 1⟩)) }] false

def undisturbed : Host (Stage Bool) :=
  Stage.host id fun _ owner => owner

theorem outcome_of_same_bytes_sample :
    (execute undisturbed 9 (.bare "x") 100 "p"
        (printing [[0x30, 0x3a, 0xc3], [0xa9, 0x0d], [0x0a, 0x31], [0x3a, 0x62, 0x0a]] [[0x77], [0xff]])).1 =
      (execute undisturbed 4 (.bare "x") 100 "p"
        (printing [[0x30, 0x3a, 0xc3, 0xa9, 0x0d, 0x0a, 0x31, 0x3a, 0x62, 0x0a]] [[0x77, 0xff]])).1 := by
  apply outcome_of_same_bytes undisturbed undisturbed 9 4 (.bare "x") 100 "p" _ _
    (fun | .output => [0x30, 0x3a, 0xc3, 0xa9, 0x0d, 0x0a, 0x31, 0x3a, 0x62, 0x0a] | .errors => [0x77, 0xff]) 0
  · refine ⟨by decide +kernel, fun _ _ => ⟨by decide +kernel, fun pipe => ?_⟩⟩
    cases pipe <;> decide +kernel
  · refine ⟨by decide +kernel, fun _ _ => ⟨by decide +kernel, fun pipe => ?_⟩⟩
    cases pipe <;> decide +kernel

end LineProbe
