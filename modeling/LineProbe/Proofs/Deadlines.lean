import LineProbe.Proofs.Cancellation

/-!
# Runs come to an end

The process of a run may print for ever, keep its pipes open and survive being killed.
-/

namespace LineProbe

def finiteExponent : Nat := 1022

/-- With at most so many seconds left, the time left is a floating-point number. -/
def representableSeconds : Int := (Nat.pow 2 finiteExponent : Nat)

theorem pow_mul_lt_of_log2 (present : numerator ≠ 0) (high : exponent + denominator.log2 < numerator.log2) :
    Nat.pow 2 exponent * denominator < numerator :=
  calc Nat.pow 2 exponent * denominator
      < Nat.pow 2 exponent * Nat.pow 2 (denominator.log2 + 1) :=
        Nat.mul_lt_mul_of_pos_left Nat.lt_log2_self (Nat.two_pow_pos exponent)
    _ = Nat.pow 2 (exponent + (denominator.log2 + 1)) := (Nat.pow_add ..).symm
    _ ≤ Nat.pow 2 numerator.log2 := Nat.pow_le_pow_right Nat.zero_lt_two high
    _ ≤ numerator := Nat.log2_self_le present

theorem Binary64.lt_of_ofRatio_infinite {negative sign : Bool} {numerator denominator : Nat}
    (h : ofRatio negative numerator denominator = .infinite sign) :
    Nat.pow 2 finiteExponent * denominator < numerator := by
  have present : numerator ≠ 0 := by
    rintro rfl
    cases h
  refine pow_mul_lt_of_log2 present ?_
  by_contra low
  rw [ofRatio, if_neg present] at h
  dsimp only at h
  rw [if_neg] at h
  · cases h
  · simp only [finiteExponent] at low
    simp only [maxExponent, minExponent]
    split <;> split <;> omega

theorem Deadline.far_of_remainingSeconds?_eq_none {deadline : Deadline} (h : deadline.remainingSeconds? now = none) :
    representableSeconds * nanosPerSecond < deadline.nanos - now := by
  rw [remainingSeconds?] at h
  split at h
  · next seconds =>
    have far := Binary64.lt_of_ofRatio_infinite seconds
    rw [remaining] at far
    rw [representableSeconds]
    omega
  · cases h

/-- A clock that ticks: each reading is later than every earlier one, and no question turns it back. -/
structure Host.Ticks {σ : Type} (host : Host σ) (time : σ → Int) : Prop where
  now : ∀ world, time world < (host.now world).1 ∧ (host.now world).1 ≤ time (host.now world).2
  cancelled : ∀ world, time world ≤ time (host.cancelled world).2
  spawn : ∀ interpreter arguments world, time world ≤ time (host.spawn interpreter arguments world).2
  ready : ∀ pipes world, time world ≤ time (host.ready pipes world).2
  read : ∀ pipe world, time world ≤ time (host.read pipe world).2
  wait : ∀ world, time world ≤ time (host.wait world).2
  poll : ∀ world, time world ≤ time (host.poll world).2
  kill : ∀ world, time world ≤ time (host.kill world)
  waitKilled : ∀ world, time world ≤ time (host.waitKilled world)

/-- From `bound` rounds on, a larger number of rounds makes no difference any more. -/
def Steady {α : Type} (bound : Nat) (answer : Nat → α) (last : α) : Prop :=
  ∀ rounds, bound ≤ rounds → answer rounds = last

theorem Steady.succ {α : Type} {bound : Nat} {answer : Nat → α} {last : α}
    (h : Steady bound (fun rounds => answer (rounds + 1)) last) : Steady (bound + 1) answer last := by
  intro rounds enough
  obtain ⟨others, rfl⟩ : ∃ others, rounds = others + 1 := ⟨rounds - 1, by omega⟩
  exact h others (by omega)

def roundsWithin (millis : Int) : Nat :=
  (millis * nanosPerMilli).toNat + 1

def RunError.InTime (timeout : Int) : RunError → Prop
  | .outOfRounds => False
  | .farDeadline => representableSeconds * 1000 < timeout
  | _ => True

def InTime {α : Type} (timeout : Int) : Except RunError α → Prop
  | .error cause => cause.InTime timeout
  | .ok _ => True

/-- A part of a run that comes to its end within so many rounds. -/
def Finishes {α β : Type} (bound : Nat) (timeout : Int) (part : Nat → Except RunError α × β) : Prop :=
  ∃ answer, Steady bound part answer ∧ InTime timeout answer.1

section

theorem Finishes.congr (h : Finishes bound timeout part) (same : ∀ rounds, bound ≤ rounds → whole rounds = part rounds) :
    Finishes bound timeout whole := by
  obtain ⟨answer, steady, inTime⟩ := h
  exact ⟨answer, fun rounds more => (same rounds more).trans (steady rounds more), inTime⟩

theorem Finishes.at_once (answer : Except RunError α × β) (inTime : InTime timeout answer.1) :
    Finishes bound timeout fun _ => answer :=
  ⟨answer, fun _ _ => rfl, inTime⟩

theorem RunError.farDeadline_inTime (far : representableSeconds * nanosPerSecond < timeout * nanosPerMilli) :
    RunError.farDeadline.InTime timeout := by
  change representableSeconds * 1000 < timeout
  simp only [nanosPerSecond, nanosPerMilli] at far
  omega

end

namespace Run

section

variable {host : Host σ}

theorem feed_time (ticks : host.Ticks time) (run : Run σ) (pipe : Pipe) (text : Text) :
    time run.world ≤ time (run.feed host pipe text).world := by
  rw [feed]
  split
  · exact Int.le_refl _
  · exact ticks.cancelled run.world

theorem kept_time (ticks : host.Ticks time) (earliest : Int) :
    KeptToEnd host fun run => earliest ≤ time run.world where
  now run h := by
    have := ticks.now run.world
    dsimp only
    omega
  cancelled run h := Int.le_trans h (ticks.cancelled _)
  ready asked run h := Int.le_trans h (ticks.ready _ _)
  readPipe pipe run h := by
    rw [readPipe]
    split
    · exact h
    · dsimp only
      split <;> exact Int.le_trans (Int.le_trans h (ticks.read pipe run.world)) (feed_time ticks _ _ _)
  wait run h := Int.le_trans h (ticks.wait _)
  poll run h := Int.le_trans h (ticks.poll _)
  kill run h := Int.le_trans h (ticks.kill _)
  waitKilled run h := Int.le_trans h (ticks.waitKilled _)

inductive Advances {α : Type} (time : σ → Int) (limit : Int) (Final : Int → α → Prop) (loop : Nat → Run σ → α)
    (run : Run σ) : Prop where
  | ends (answer : α) (same : ∀ rounds, loop (rounds + 1) run = answer) (final : Final (limit - time run.world) answer)
  | goesOn (next : Run σ) (same : ∀ rounds, loop (rounds + 1) run = loop rounds next)
      (early : time run.world < limit) (tick : time run.world < time next.world)

section Loop

-- The induction is on the nanoseconds that are left, whatever the rounds read.
theorem steady_of_advances (step : ∀ run, Advances time limit Final loop run)
    (mono : ∀ left more answer, left ≤ more → Final left answer → Final more answer) (left : Nat) (run : Run σ)
    (reached : limit ≤ time run.world + left) :
    ∃ answer, Steady (left + 1) (loop · run) answer ∧ Final (limit - time run.world) answer := by
  induction left generalizing run with
  | zero =>
    cases step run with
    | ends answer same final => exact ⟨answer, .succ fun rounds _ => same rounds, final⟩
    | goesOn next same early tick => omega
  | succ left ih =>
    cases step run with
    | ends answer same final => exact ⟨answer, .succ fun rounds _ => same rounds, final⟩
    | goesOn next same early tick =>
      obtain ⟨answer, steady, final⟩ := ih next (by omega)
      refine ⟨answer, .succ fun rounds enough => ?_, mono _ _ _ (by omega) final⟩
      exact (same rounds).trans (steady rounds enough)

theorem steady_within (step : ∀ run, Advances time (Deadline.after now millis).nanos Final loop run)
    (mono : ∀ left more answer, left ≤ more → Final left answer → Final more answer)
    (enough : roundsWithin millis ≤ bound) (started : now ≤ time run.world) :
    ∃ answer, Steady bound (loop · run) answer ∧ Final (millis * nanosPerMilli) answer := by
  have limit : (Deadline.after now millis).nanos = now + millis * nanosPerMilli := rfl
  obtain ⟨answer, steady, final⟩ := steady_of_advances step mono (millis * nanosPerMilli).toNat run (by omega)
  exact ⟨answer, fun rounds more => steady rounds (Nat.le_trans enough more), mono _ _ _ (by omega) final⟩

end Loop

def PumpEnd.Final (heeds : Bool) (left : Int) : PumpEnd → Prop
  | .outOfRounds => False
  | .cancelled => heeds
  | .farDeadline => representableSeconds * nanosPerSecond < left
  | .endOfFile | .timedOut => True

theorem PumpEnd.Final.mono {cause : PumpEnd} (le : left ≤ more) (h : cause.Final heeds left) :
    cause.Final heeds more := by
  cases cause with
  | farDeadline => exact Int.lt_of_lt_of_le h le
  | _ => exact h

theorem round_time (ticks : host.Ticks time) {run : Run σ} {world : σ} (later : earliest < time world) :
    earliest < time ({ run with world }.round host).world :=
  (kept_time ticks (earliest + 1)).round later

theorem flag_time (ticks : host.Ticks time) (heeds : Bool) (world : σ) : time world ≤ time (host.flag heeds world).2 := by
  cases heeds with
  | false => exact Int.le_refl _
  | true => exact ticks.cancelled world

theorem heeds_of_flag {world : σ} (h : (host.flag heeds world).1) : heeds := by
  cases heeds with
  | false => exact h
  | true => rfl

theorem pump_advances (ticks : host.Ticks time) (heeds : Bool) (deadline : Deadline) (run : Run σ) :
    Advances time deadline.nanos (fun left answer => answer.1.Final heeds left) (pump host heeds deadline) run := by
  let asked := (host.flag heeds run.world).2
  let looked := (host.now asked).2
  let again := (host.now looked).2
  have cancelled : time run.world ≤ time asked := flag_time ticks heeds run.world
  have first : time asked < (host.now asked).1 ∧ (host.now asked).1 ≤ time looked := ticks.now asked
  have second : time looked < (host.now looked).1 ∧ (host.now looked).1 ≤ time again := ticks.now looked
  by_cases ended : run.pipes = []
  · exact .ends (.endOfFile, run) (fun _ => if_pos ended) trivial
  by_cases flag : (host.flag heeds run.world).1
  · refine .ends (.cancelled, { run with world := asked }) (fun _ => ?_) (heeds_of_flag flag)
    exact (if_neg ended).trans (if_pos flag)
  by_cases late : deadline.expired (host.now asked).1
  · refine .ends (.timedOut, { run with world := looked }) (fun _ => ?_) trivial
    exact (if_neg ended).trans ((if_neg flag).trans (if_pos late))
  cases seconds : deadline.remainingSeconds? (host.now looked).1 with
  | none =>
    refine .ends (.farDeadline, { run with world := again }) (fun _ => ?_) ?_
    · rw [pump, if_neg ended]
      dsimp only
      rw [if_neg flag, if_neg late, seconds]
    · have far := Deadline.far_of_remainingSeconds?_eq_none seconds
      change representableSeconds * nanosPerSecond < deadline.nanos - time run.world
      omega
  | some _ =>
    refine .goesOn ({ run with world := again }.round host) (fun _ => ?_) ?_ (round_time ticks (by omega))
    · rw [pump, if_neg ended]
      dsimp only
      rw [if_neg flag, if_neg late, seconds]
    · simp only [Deadline.expired, decide_eq_true_eq] at late
      omega

/-! ## Ending a run -/

theorem pump_steady (ticks : host.Ticks time) (heeds : Bool) (enough : roundsWithin timeout ≤ bound)
    (started : now ≤ time run.world) :
    ∃ cause last, Steady bound (pump host heeds (.after now timeout) · run) (cause, last) ∧
      cause.Final heeds (timeout * nanosPerMilli) := by
  obtain ⟨⟨cause, last⟩, steady, final⟩ := steady_within (pump_advances ticks heeds (.after now timeout))
    (fun _ _ _ le final => final.mono le) enough started
  exact ⟨cause, last, steady, final⟩

theorem drain_steady (ticks : host.Ticks time) (enough : roundsWithin drainMillis ≤ bound)
    (started : now ≤ time run.world) :
    ∃ cause last, Steady bound (pump host false (.after now drainMillis) · run) (cause, last) ∧
      (cause = .endOfFile ∨ cause = .timedOut) := by
  obtain ⟨cause, last, steady, final⟩ := pump_steady ticks false enough started
  refine ⟨cause, last, steady, ?_⟩
  cases cause with
  | endOfFile => exact .inl rfl
  | timedOut => exact .inr rfl
  | farDeadline =>
    have some : 0 < representableSeconds := by decide +kernel
    simp only [PumpEnd.Final, nanosPerSecond, nanosPerMilli, drainMillis] at final
    omega
  | cancelled => cases final
  | outOfRounds => exact final.elim

theorem stop_finishes (ticks : host.Ticks time) (enough : roundsWithin drainMillis ≤ bound) (cause : StopCause)
    (run : Run σ) : Finishes bound timeout (stop host · cause run) := by
  let polled := host.poll (ensureEnded host run.world)
  cases cause with
  | cancelled => exact .at_once _ trivial
  | timedOut =>
    have started : (host.now polled.2).1 ≤ time { run with world := (host.now polled.2).2 }.world :=
      (ticks.now polled.2).2
    obtain ⟨ended, last, steady, final⟩ := drain_steady ticks enough started
    refine ⟨(.ok ⟨some .timedOut, polled.1⟩, last), fun rounds more => ?_, trivial⟩
    have drained := steady rounds more
    dsimp only [polled] at drained
    simp only [stop, drained, polled]
    rcases final with rfl | rfl <;> rfl

theorem await_finishes (ticks : host.Ticks time) (enough : roundsWithin drainMillis ≤ bound)
    (started : now ≤ time run.world) : Finishes bound timeout (await host (.after now timeout) · run) := by
  simp only [await]
  split
  · next seconds =>
    have looked := ticks.now run.world
    have far : representableSeconds * nanosPerSecond < now + timeout * nanosPerMilli - (host.now run.world).1 :=
      Deadline.far_of_remainingSeconds?_eq_none seconds
    exact .at_once _ (RunError.farDeadline_inTime (by omega))
  · split
    · exact stop_finishes ticks enough .timedOut _
    · split
      · exact stop_finishes ticks enough .cancelled _
      · exact .at_once _ trivial

theorem watch_finishes (ticks : host.Ticks time) (enough : roundsWithin timeout ≤ bound)
    (drains : roundsWithin drainMillis ≤ bound) (started : now ≤ time run.world) :
    Finishes bound timeout (watch host (.after now timeout) · run) := by
  obtain ⟨cause, last, steady, final⟩ := pump_steady ticks true enough started
  have pumped : ∀ rounds, bound ≤ rounds → pump host true (.after now timeout) rounds run = (cause, last) := steady
  have later : now ≤ time last.world := by
    have kept := (kept_time ticks now).pump true (.after now timeout) bound started
    rwa [pumped bound (Nat.le_refl _)] at kept
  cases cause with
  | endOfFile =>
    exact (await_finishes ticks drains later).congr fun rounds more => by rw [watch, pumped rounds more]
  | cancelled =>
    exact (stop_finishes ticks drains .cancelled last).congr fun rounds more => by rw [watch, pumped rounds more]
  | timedOut =>
    exact (stop_finishes ticks drains .timedOut last).congr fun rounds more => by rw [watch, pumped rounds more]
  | farDeadline =>
    have inTime : InTime timeout (.error .farDeadline : Except RunError Stopped) := RunError.farDeadline_inTime final
    exact (Finishes.at_once (_, last) inTime).congr fun rounds more => by rw [watch, pumped rounds more]
  | outOfRounds => exact final.elim

end

end Run

section

variable {host : Host σ}

theorem conclude_inTime (host : Host σ) (stopped : Run.Stopped) (run : Run σ) : InTime timeout
    (run.conclude host timeout stopped).1 := by
  rw [Run.conclude]
  dsimp only
  split <;> trivial

theorem runProcess_finishes (ticks : host.Ticks time) (enough : roundsWithin timeout ≤ bound)
    (drains : roundsWithin drainMillis ≤ bound) (collector : Collector) (pipes : List Pipe) (started : now ≤ time world) :
    Finishes bound timeout (runProcess host · timeout (.after now timeout) collector pipes world) := by
  let run : Run σ := ⟨world, collector, pipes.map fun pipe => (pipe, .between)⟩
  obtain ⟨⟨stopped, last⟩, steady, inTime⟩ :=
    Run.watch_finishes ticks enough drains (show now ≤ time run.world from started)
  have watched : ∀ rounds, bound ≤ rounds → Run.watch host (.after now timeout) rounds run = (stopped, last) := steady
  let closed := pipes.foldl (fun world pipe => host.close pipe world) last.world
  cases stopped with
  | error cause =>
    have reported : InTime timeout (.error cause : Except RunError Outcome) := inTime
    refine (Finishes.at_once (_, closed) reported).congr fun rounds more => ?_
    rw [runProcess, watched rounds more]
  | ok stopped =>
    refine (Finishes.at_once _ (conclude_inTime host stopped { last with world := closed })).congr fun rounds more => ?_
    rw [runProcess, watched rounds more]

theorem execute_finishes (ticks : host.Ticks time) (enough : roundsWithin timeout ≤ bound)
    (drains : roundsWithin drainMillis ≤ bound) (program : Runnable) (interpreter : Text) (world : σ) :
    Finishes bound timeout (execute host · program timeout interpreter world) := by
  have looked := ticks.now (host.cancelled world).2
  have spawned := ticks.spawn interpreter (interpreterFlags ++ [program.text]) (host.now (host.cancelled world).2).2
  simp only [execute]
  split
  · exact .at_once _ trivial
  split
  · exact .at_once _ trivial
  split
  · exact .at_once _ trivial
  split
  · exact .at_once _ trivial
  · next answer =>
    rw [answer] at spawned
    exact runProcess_finishes ticks enough drains _ _ (Int.le_trans looked.2 spawned)

/-- Every run ends. Reading the pipes stops after a number of rounds that the timeout bounds: at the end of
both pipes, for the flag or for the deadline, or because the deadline is too far away for a number of seconds.
Reading what a stopped process has left stops at the end of both pipes or for its deadline, and the whole run stops. -/
theorem every_run_ends (ticks : host.Ticks time) (timeout : Int) :
    (∀ (run : Run σ) (now : Int), now ≤ time run.world → ∃ cause last,
      Steady (roundsWithin timeout) (Run.pump host true (.after now timeout) · run) (cause, last) ∧
      (cause = .endOfFile ∨ cause = .cancelled ∨ cause = .timedOut ∨
        cause = .farDeadline ∧ representableSeconds * 1000 < timeout)) ∧
    (∀ (run : Run σ) (now : Int), now ≤ time run.world → ∃ cause last,
      Steady (roundsWithin drainMillis) (Run.pump host false (.after now drainMillis) · run) (cause, last) ∧
      (cause = .endOfFile ∨ cause = .timedOut)) ∧
    ∀ program interpreter world,
      Finishes (max (roundsWithin timeout) (roundsWithin drainMillis)) timeout
        (execute host · program timeout interpreter world) := by
  refine ⟨fun run now started => ?_, fun run now started => Run.drain_steady ticks (Nat.le_refl _) started,
    execute_finishes ticks (Nat.le_max_left ..) (Nat.le_max_right ..)⟩
  obtain ⟨cause, last, steady, final⟩ := Run.pump_steady ticks true (Nat.le_refl _) started
  refine ⟨cause, last, steady, ?_⟩
  cases cause with
  | endOfFile => exact .inl rfl
  | cancelled => exact .inr (.inl rfl)
  | timedOut => exact .inr (.inr (.inl rfl))
  | farDeadline => exact .inr (.inr (.inr ⟨rfl, RunError.farDeadline_inTime final⟩))
  | outOfRounds => exact final.elim

end

/-- A process that prints for ever and survives being killed. The clock is all that changes. -/
def endless : Host Int where
  now time := (time + 1, time + 1)
  cancelled time := (false, time)
  spawn _ _ time := (.ok [.output, .errors], time)
  ready pipes time := (pipes, time)
  read _ time := ([120], time)
  wait time := (none, time)
  poll time := (none, time)
  kill time := time
  waitKilled time := time
  close _ time := time

theorem endless_ticks : endless.Ticks id where
  now time := ⟨Int.lt_add_one_of_le (Int.le_refl time), Int.le_refl _⟩
  cancelled time := Int.le_refl time
  spawn _ _ time := Int.le_refl time
  ready _ time := Int.le_refl time
  read _ time := Int.le_refl time
  wait time := Int.le_refl time
  poll time := Int.le_refl time
  kill time := Int.le_refl time
  waitKilled time := Int.le_refl time

theorem every_run_ends_endless : endless.Ticks id ∧
    Finishes (max (roundsWithin 1000) (roundsWithin drainMillis)) 1000 (execute endless · (.bare ['x']) 1000 ['p'] 0) :=
  ⟨endless_ticks, (every_run_ends endless_ticks 1000).2.2 _ _ _⟩

def farTimeout : Int := (Nat.pow (Nat.pow 10 160) 2 : Nat)

theorem execute_endless_farTimeout : (execute endless 1 (.bare ['x']) farTimeout ['p'] 0).1 = .error .farDeadline := by
  have known : ¬farTimeout < 0 := by decide +kernel
  have early : (Deadline.after 1 farTimeout).expired 2 = false := by decide +kernel
  have far : (Deadline.after 1 farTimeout).remainingSeconds? 3 = none := by decide +kernel
  obtain ⟨collector, started⟩ : ∃ collector, Collector.start (some (.bare ['x'])) = .ok collector := ⟨_, rfl⟩
  have watched : Run.watch endless (.after 1 farTimeout) 1 ⟨1, collector, [(.output, .between), (.errors, .between)]⟩ =
      (.error .farDeadline, ⟨3, collector, [(.output, .between), (.errors, .between)]⟩) := by
    simp [Run.watch, Run.pump, Host.flag, endless, early, far]
  have spawned : execute endless 1 (.bare ['x']) farTimeout ['p'] 0 =
      runProcess endless 1 farTimeout (.after 1 farTimeout) collector [.output, .errors] 1 := by
    simp only [execute, started, if_neg known]
    rfl
  rw [spawned, runProcess, List.map_cons, List.map_cons, List.map_nil, watched]

end LineProbe
