import LineProbe.Proofs.Delivery
import LineProbe.Proofs.Watching

/-!
# Runs that are cancelled

The owner of a run may set its flag at any moment, and the run asks for the flag many times: before it starts, in
every round of reading, for every text, after waiting, and twice at its end.
-/

namespace LineProbe

/-- The flag stays set once it has been seen set. -/
def Sticky (events : List Event) : Prop :=
  events.Pairwise fun earlier later => earlier = .cancelled true → later ≠ .cancelled false

/-- The flag is seen set for the first time by the last question, when there are results already. -/
def SetLate (events : List Event) : Prop :=
  ∃ before, events = before ++ [.cancelled false, .cancelled true] ∧ .cancelled true ∉ before

section

variable (host : Host σ)

namespace Run

theorem kept_collector (property : Collector → Prop)
    (output : ∀ collector cancelled text, property collector → property (collector.feedOutput cancelled text))
    (errors : ∀ collector cancelled text, property collector → property (collector.feedErrors cancelled text)) :
    KeptToEnd host fun run => property run.collector where
  now _ h := h
  cancelled _ h := h
  ready _ _ h := h
  readPipe pipe run h := by
    have fed {run : Run σ} (h : property run.collector) (text : Text) : property (run.feed host pipe text).collector := by
      rw [feed]
      split
      · exact h
      · cases pipe
        · exact output _ _ _ h
        · exact errors _ _ _ h
    rw [readPipe]
    split
    · exact h
    · dsimp only
      split <;> apply fed <;> exact h
  wait _ h := h
  poll _ h := h
  kill _ h := h
  waitKilled _ h := h

theorem kept_running : KeptToEnd host fun run => run.collector.results = none := by
  apply kept_collector host fun collector => collector.results = none
  · intro collector cancelled text h
    rw [Collector.feedOutput]
    split <;> exact h
  · intro collector cancelled text h
    rw [Collector.feedErrors]
    split <;> exact h

theorem kept_listening (running : start.results = none) :
    KeptToEnd host.recorded fun run => .cancelled true ∉ run.events → Hears start run where
  toKept := kept_hears host running
  wait _ h := Hears.asked h fun _ => rfl
  poll _ h := Hears.asked h fun _ => rfl
  kill _ h := Hears.asked h fun _ => rfl
  waitKilled _ h := Hears.asked h fun _ => rfl

end Run

/-! ## The outcome -/

def Heard (events : List Event) (pipe : Pipe) (text : Text) : Prop :=
  text = (Utf8.decode .between (delivered pipe events)).1 ∨ text = Utf8.decodeAll (delivered pipe events)

/-- An outcome with the results and the chunks of everything that came through the pipes. -/
def ReportsAll (start : Collector) (timeout : Int) (events : List Event) (outcome : Outcome) : Prop :=
  ∃ (texts : Pipe → Text) (timedOut : Bool) (finished : Collector), (∀ pipe, Heard events pipe (texts pipe)) ∧
    (if timedOut then (start.told texts).markTimedOut timeout else start.told texts).finish false outcome.code =
      .ok (outcome.results, finished) ∧ outcome.chunks = finished.chunks

structure Ends (start : Collector) (timeout : Int) (outcome : Outcome) (before : List Event) (first last : Bool) :
    Prop where
  seen : outcome.state = .cancelled → last = true ∨ .cancelled true ∈ before
  cancelled : last = true → outcome.state = .cancelled
  silent : first = true → outcome.results = [] ∧ outcome.chunks = []
  loud : first = false → .cancelled true ∉ before → ReportsAll start timeout before outcome

theorem Run.heard_heard (run : Run (σ × List Event)) (pipe : Pipe) : Heard run.events pipe (run.heard pipe) := by
  rw [Run.heard]
  split
  · exact .inl rfl
  · exact .inr rfl

theorem finish_cancelled {collector finished : Collector} (running : collector.results = none)
    (h : collector.finish true code = .ok (results, finished)) : results = [] ∧ finished.chunks = [] := by
  simp only [Collector.finish, running, if_true] at h
  cases h
  exact ⟨rfl, rfl⟩

theorem Run.finalState_eq_cancelled {last guardTripped : Bool} :
    finalState stopped last guardTripped = .cancelled ↔ last ∨ stopped.cause = some .cancelled := by
  rw [finalState]
  split
  · next set => simp [set]
  · next unset =>
    split
    · next cause => simp [cause, unset]
    · next cause => simp [cause]
    · next cause => split <;> simp [cause, unset]

theorem Run.conclude_ends {run : Run (σ × List Event)} {world : σ × List Event} (running : run.collector.results = none)
    (listens : .cancelled true ∉ run.events → Hears start run)
    (seen : stopped.cause = some .cancelled → .cancelled true ∈ run.events)
    (h : conclude host.recorded timeout stopped run = (.ok outcome, world)) :
    ∃ first last, world.2 = run.events ++ [.cancelled first, .cancelled last] ∧
      Ends start timeout outcome run.events first last := by
  have marked : (if stopped.cause = some .timedOut then run.collector.markTimedOut timeout
      else run.collector).results = none := by
    split <;> exact running
  rcases flag : host.cancelled run.world.1 with ⟨first, asked⟩
  rcases again : host.cancelled asked with ⟨last, left⟩
  simp only [conclude, Host.recorded_cancelled, flag, again] at h
  split at h
  · cases h
  · next results finished done =>
    obtain ⟨same, rfl⟩ := Prod.mk.inj h
    obtain rfl := Except.ok.inj same
    refine ⟨first, last, List.append_assoc _ _ _, ?_, ?_, ?_, ?_⟩
    · intro state
      exact (finalState_eq_cancelled.1 state).imp_right seen
    · intro set
      exact finalState_eq_cancelled.2 (.inl set)
    · rintro rfl
      exact finish_cancelled marked done
    · rintro rfl unseen
      rw [(listens unseen).collector] at done
      refine ⟨run.heard, decide (stopped.cause = some .timedOut), finished, run.heard_heard, ?_, rfl⟩
      simpa using done

theorem runProcess_ends (running : start.results = none) (untold : start.told (fun _ => []) = start)
    (ran : runProcess host.recorded rounds timeout deadline start pipes world = (.ok outcome, final))
    (silent : ∀ pipe, delivered pipe world.2 = []) :
    ∃ before first last, final.2 = before ++ [.cancelled first, .cancelled last] ∧
      Ends start timeout outcome before first last := by
  have hears := Run.hears_opened untold pipes silent
  have listens := (Run.kept_listening host running).watch deadline rounds fun _ => hears
  have still : (Run.watch host.recorded deadline rounds
      ⟨world, start, pipes.map fun pipe => (pipe, .between)⟩).2.collector.results = none :=
    (Run.kept_running host.recorded).watch deadline rounds running
  rw [runProcess] at ran
  rcases watched : Run.watch host.recorded deadline rounds _ with ⟨stopped, last⟩
  rw [watched] at still listens ran
  have closes := close_adds host pipes last.world
  dsimp only at ran
  generalize pipes.foldl (fun world pipe => host.recorded.close pipe world) last.world = closed at closes ran
  cases stopped with
  | error cause => cases ran
  | ok stopped =>
    have same : ∀ pipe, delivered pipe closed.2 = delivered pipe last.events :=
      delivered_of_adds closes fun event pipe closing => by cases event <;> trivial
    have concluded : Run.conclude host.recorded timeout stopped { last with world := closed } = (.ok outcome, final) := ran
    refine ⟨closed.2, Run.conclude_ends host ?_ ?_ ?_ concluded⟩
    · exact still
    · intro unseen
      exact (listens fun mem => unseen (closes.mem mem)).of_silent rfl rfl same
    · intro cause
      obtain ⟨new, told, watches⟩ := Run.watch_watched host watched
      apply closes.mem
      rw [Run.events] at told
      rw [told]
      exact List.mem_append_right _ (watches.seen cause)

theorem execute_ends (ran : (execute host rounds program timeout interpreter world).1 = .ok outcome) :
    (transcript host rounds program timeout interpreter world = [.cancelled true] ∧ outcome = cancelledOutcome) ∨
      ∃ start before first last, Collector.start (some program) = .ok start ∧
        transcript host rounds program timeout interpreter world = before ++ [.cancelled first, .cancelled last] ∧
        Ends start timeout outcome before first last := by
  rw [← execute_recorded host rounds program timeout interpreter (world, [])] at ran
  rw [transcript]
  rcases whole : execute host.recorded rounds program timeout interpreter (world, []) with ⟨result, final⟩
  obtain rfl : result = .ok outcome := by
    rw [whole] at ran
    exact ran
  rcases flag : host.cancelled world with ⟨cancelled, asked⟩
  rcases time : host.now asked with ⟨now, looked⟩
  rcases answer : host.spawn interpreter (interpreterFlags ++ [program.text]) looked with ⟨spawned, next⟩
  simp only [execute, Host.recorded_cancelled, Host.recorded_now, Host.recorded_spawn, flag, time, answer] at whole
  split at whole
  · next set =>
    obtain ⟨same, rfl⟩ := Prod.mk.inj whole
    exact .inl ⟨by simp [set], (Except.ok.inj same).symm⟩
  split at whole
  · cases whole
  split at whole
  · cases whole
  cases spawned with
  | error cause => cases whole
  | ok pipes =>
    next start started _ =>
    obtain ⟨running, untold⟩ := Collector.told_start started
    obtain ⟨before, first, last, events, ends⟩ := runProcess_ends host running untold whole fun pipe => by
      simp [delivered, Event.bytes]
    exact .inr ⟨start, before, first, last, started, events, ends⟩

end

theorem Sticky.unseen (h : Sticky (before ++ .cancelled false :: after)) : .cancelled true ∉ before := by
  intro mem
  exact (List.pairwise_append.1 h).2.2 _ mem _ List.mem_cons_self rfl rfl

theorem ReportsAll.closing (h : ReportsAll start timeout before outcome) :
    ReportsAll start timeout (before ++ [.cancelled first, .cancelled last]) outcome := by
  obtain ⟨texts, timedOut, finished, heard, done, chunks⟩ := h
  refine ⟨texts, timedOut, finished, fun pipe => ?_, done, chunks⟩
  have same : delivered pipe (before ++ [.cancelled first, .cancelled last]) = delivered pipe before := by
    simp [delivered, Event.bytes]
  rw [Heard, same]
  exact heard pipe

/-- A cancelled run reports nothing, unless its flag is seen set for the first time by its last question. In that
case it reports everything. -/
theorem cancelled_outcome {σ : Type} (host : Host σ) {rounds : Nat} {program : Runnable} {timeout : Int}
    {interpreter : Text} {world : σ} {outcome : Outcome}
    (sticky : Sticky (transcript host rounds program timeout interpreter world))
    (ran : (execute host rounds program timeout interpreter world).1 = .ok outcome) :
    (outcome.state = .cancelled ↔ .cancelled true ∈ transcript host rounds program timeout interpreter world) ∧
      (outcome.state = .cancelled → ¬SetLate (transcript host rounds program timeout interpreter world) →
        outcome.results = [] ∧ outcome.chunks = []) ∧
      (SetLate (transcript host rounds program timeout interpreter world) →
        ∃ start, Collector.start (some program) = .ok start ∧
          ReportsAll start timeout (transcript host rounds program timeout interpreter world) outcome) := by
  rcases execute_ends host ran with ⟨events, rfl⟩ | ⟨start, before, first, last, started, events, ends⟩
  · rw [events]
    refine ⟨by simp [cancelledOutcome], fun _ _ => ⟨rfl, rfl⟩, ?_⟩
    rintro ⟨before, same, -⟩
    have lengths := congrArg List.length same
    simp at lengths
  · rw [events] at sticky ⊢
    have unseen : first = false → .cancelled true ∉ before := by
      rintro rfl
      exact sticky.unseen
    refine ⟨⟨fun state => ?_, fun mem => ?_⟩, fun state early => ?_, ?_⟩
    · rcases ends.seen state with rfl | mem
      · simp
      · exact List.mem_append_left _ mem
    · cases last with
      | true => exact ends.cancelled rfl
      | false =>
        have never : .cancelled true ∉ before ++ [.cancelled first] := Sticky.unseen (by simpa using sticky)
        simp_all
    · cases first with
      | true => exact ends.silent rfl
      | false =>
        obtain rfl := (ends.seen state).resolve_right (unseen rfl)
        exact absurd ⟨before, rfl, unseen rfl⟩ early
    · rintro ⟨other, same, -⟩
      obtain ⟨rfl, answers⟩ := List.append_inj' same rfl
      cases answers
      exact ⟨start, started, (ends.loud rfl (unseen rfl)).closing⟩

/-- The host that does the same, and whose flag is set from a question on. The questions are counted from 0. -/
def Host.setFrom {σ : Type} (host : Host σ) (question : Nat) : Host (σ × Nat) where
  now world := ((host.now world.1).1, (host.now world.1).2, world.2)
  cancelled world := (question ≤ world.2, world.1, world.2 + 1)
  spawn interpreter arguments world :=
    ((host.spawn interpreter arguments world.1).1, (host.spawn interpreter arguments world.1).2, world.2)
  ready pipes world := ((host.ready pipes world.1).1, (host.ready pipes world.1).2, world.2)
  read pipe world := ((host.read pipe world.1).1, (host.read pipe world.1).2, world.2)
  wait world := ((host.wait world.1).1, (host.wait world.1).2, world.2)
  poll world := ((host.poll world.1).1, (host.poll world.1).2, world.2)
  kill world := (host.kill world.1, world.2)
  waitKilled world := (host.waitKilled world.1, world.2)
  close pipe world := (host.close pipe world.1, world.2)

def oneChunk : Stage Bool × Nat :=
  (printing [[0x30, 0x3a, 0x61, 0x0a]] [], 0)

theorem cancelled_outcome_sample :
    Sticky (transcript (undisturbed.setFrom 5) 9 (.bare "x") 100 "p" oneChunk) ∧
      ∃ outcome, (execute (undisturbed.setFrom 5) 9 (.bare "x") 100 "p" oneChunk).1 = .ok outcome ∧
        outcome.state = .cancelled ∧ outcome.results = [] ∧ outcome.chunks = [] := by
  have sticky : Sticky (transcript (undisturbed.setFrom 5) 9 (.bare "x") 100 "p" oneChunk) := by
    rw [Sticky]
    decide +kernel
  have answers : (transcript (undisturbed.setFrom 5) 9 (.bare "x") 100 "p" oneChunk).dropLast.getLast? =
      some (.cancelled true) := by
    decide +kernel
  have early : ¬SetLate (transcript (undisturbed.setFrom 5) 9 (.bare "x") 100 "p" oneChunk) := by
    rintro ⟨before, same, -⟩
    rw [same] at answers
    simp at answers
  have runs : (execute (undisturbed.setFrom 5) 9 (.bare "x") 100 "p" oneChunk).1.toOption.isSome = true := by
    decide +kernel
  rcases ran : (execute (undisturbed.setFrom 5) 9 (.bare "x") 100 "p" oneChunk).1 with cause | outcome
  · rw [ran] at runs
    cases runs
  · obtain ⟨state, silent, -⟩ := cancelled_outcome (undisturbed.setFrom 5) sticky ran
    have cancelled := state.2 ((List.dropLast_sublist _).mem (List.mem_of_getLast? answers))
    exact ⟨sticky, outcome, rfl, cancelled, silent cancelled early⟩

/-- The flag is set right after the results are made: the run is cancelled and reports its output. -/
theorem cancelled_with_results :
    Sticky (transcript (undisturbed.setFrom 6) 9 (.bare "x") 100 "p" oneChunk) ∧
      (execute (undisturbed.setFrom 6) 9 (.bare "x") 100 "p" oneChunk).1.toOption =
        some ⟨.cancelled, [⟨0, "a", false⟩], [⟨"0:a", false⟩], some 0, []⟩ := by
  rw [Sticky]
  decide +kernel

end LineProbe
