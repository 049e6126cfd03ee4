import LineProbe.Proofs.Transcript

/-!
# What a run is told while it is watched

From the start of its process up to the point where its pipes are closed a run is told of an exit, or of the reason why
it is broken off and of the way in which its process is brought to an end.
-/

namespace LineProbe

open Run (StopCause Stopped PumpEnd)

def Reads (events : List Event) : Prop :=
  ∀ event ∈ events, event.IsReading

inductive BrokenOff (deadline : Deadline) : StopCause → List Event → Prop where
  | flagged {reading : List Event} (reads : Reads reading) :
    BrokenOff deadline .cancelled (reading ++ [.cancelled true])
  | expired {reading : List Event} {time : Int} (reads : Reads reading) (late : deadline.expired time = true) :
    BrokenOff deadline .timedOut (reading ++ [.cancelled false, .now time])
  | overdue {reading : List Event} {time : Int} (reads : Reads reading) :
    BrokenOff deadline .timedOut (reading ++ [.now time, .wait none])
  | overtaken {reading : List Event} {time code : Int} (reads : Reads reading) :
    BrokenOff deadline .cancelled (reading ++ [.now time, .wait (some code), .cancelled true])

inductive Halted : List Event → Option Int → Prop where
  | found {code : Int} {last : Option Int} : Halted [.poll (some code), .poll last] last
  | killed {last : Option Int} : Halted [.poll none, .kill, .waitKilled, .poll last] last

/-- What a run is told from the start of its process up to the point where its pipes are closed. -/
inductive Watched (deadline : Deadline) : Stopped → List Event → Prop where
  | exited {reading : List Event} {time code : Int} (reads : Reads reading) :
    Watched deadline ⟨none, some code⟩ (reading ++ [.now time, .wait (some code), .cancelled false])
  | stopped {cause : StopCause} {before ending drained : List Event} {code : Option Int}
    (broken : BrokenOff deadline cause before) (halted : Halted ending code) (reads : Reads drained)
    (undrained : cause = .cancelled → drained = []) :
    Watched deadline ⟨some cause, code⟩ (before ++ ending ++ drained)

theorem Reads.append (h : Reads first) (h' : Reads last) : Reads (first ++ last) :=
  List.forall_mem_append.2 ⟨h, h'⟩

variable {events : List Event}

theorem BrokenOff.behind (h : BrokenOff deadline cause events) (reads : Reads reading) :
    BrokenOff deadline cause (reading ++ events) := by
  cases h with
  | flagged later =>
    rw [← List.append_assoc]
    exact .flagged (reads.append later)
  | expired later late =>
    rw [← List.append_assoc]
    exact .expired (reads.append later) late
  | overdue later =>
    rw [← List.append_assoc]
    exact .overdue (reads.append later)
  | overtaken later =>
    rw [← List.append_assoc]
    exact .overtaken (reads.append later)

theorem Watched.behind {stopped : Stopped} (h : Watched deadline stopped events) (reads : Reads reading) :
    Watched deadline stopped (reading ++ events) := by
  cases h with
  | exited later =>
    rw [← List.append_assoc]
    exact .exited (reads.append later)
  | stopped broken halted drained undrained =>
    rw [← List.append_assoc, ← List.append_assoc]
    exact .stopped (broken.behind reads) halted drained undrained

namespace Run

variable (host : Host σ)

inductive PumpEnd.Told (deadline : Deadline) : PumpEnd → List Event → Prop where
  | endOfFile : Told deadline .endOfFile []
  | cancelled : Told deadline .cancelled [.cancelled true]
  | timedOut {time : Int} (late : deadline.expired time = true) : Told deadline .timedOut [.cancelled false, .now time]
  | farDeadline : Told deadline .farDeadline []
  | outOfRounds : Told deadline .outOfRounds []

theorem pump_told (h : pump host.recorded true deadline rounds run = (ended, last)) :
    ∃ between told, Adds Event.IsReading run.events between ∧ last.events = between ++ told ∧ ended.Told deadline told := by
  induction rounds generalizing run with
  | zero =>
    cases h
    exact ⟨_, [], .refl _ _, (List.append_nil _).symm, .outOfRounds⟩
  | succ rounds ih =>
    obtain ⟨⟨world, notes⟩, collector, pipes⟩ := run
    rcases flag : host.cancelled world with ⟨cancelled, asked⟩
    rcases time : host.now asked with ⟨now, looked⟩
    rcases again : host.now looked with ⟨later, ready⟩
    simp only [pump, Host.flag, if_true, Host.recorded_cancelled, Host.recorded_now, flag, time, again] at h
    split at h
    · cases h
      exact ⟨_, [], .refl _ _, (List.append_nil _).symm, .endOfFile⟩
    split at h
    · next set =>
      subst set
      cases h
      exact ⟨notes, _, .refl _ _, rfl, .cancelled⟩
    next unset =>
    obtain rfl : cancelled = false := by simpa using unset
    split at h
    · next late =>
      cases h
      exact ⟨notes, _, .refl _ _, List.append_assoc _ _ _, .timedOut late⟩
    have asks : Adds Event.IsReading notes (notes ++ [.cancelled false] ++ [.now now] ++ [.now later]) :=
      (((Adds.refl _ _).concat trivial).concat trivial).concat trivial
    split at h
    · cases h
      exact ⟨_, [], asks, (List.append_nil _).symm, .farDeadline⟩
    · obtain ⟨between, told, reads, whole, ends⟩ := ih h
      have round := @Kept.round _ _ _ (kept_adds host notes fun _ => id)
        ⟨(ready, notes ++ [.cancelled false] ++ [.now now] ++ [.now later]), collector, pipes⟩ asks
      exact ⟨between, told, round.trans reads, whole, ends⟩

theorem halted_of_ensureEnded (world : σ × List Event) :
    ∃ ending, (host.recorded.poll (ensureEnded host.recorded world)).2.2 = world.2 ++ ending ∧
      Halted ending (host.recorded.poll (ensureEnded host.recorded world)).1 := by
  rw [ensureEnded]
  rcases answer : host.poll world.1 with ⟨_ | code, next⟩
  · simp only [Host.recorded_poll, answer]
    exact ⟨_, by simp [Host.recorded], .killed⟩
  · simp only [Host.recorded_poll, answer]
    exact ⟨_, List.append_assoc _ _ _, .found⟩

theorem stop_halted (h : stop host.recorded rounds cause run = (.ok stopped, last)) :
    ∃ ending drained code, last.events = run.events ++ (ending ++ drained) ∧ Halted ending code ∧ Reads drained ∧
      (cause = .cancelled → drained = []) ∧ stopped = ⟨some cause, code⟩ := by
  obtain ⟨ending, whole, halted⟩ := halted_of_ensureEnded host run.world
  rw [stop] at h
  rcases answer : host.recorded.poll (ensureEnded host.recorded run.world) with ⟨code, polled⟩
  rw [answer] at h whole halted
  cases cause with
  | cancelled =>
    cases h
    exact ⟨ending, [], code, by rw [List.append_nil]; exact whole, halted, by simp [Reads], fun _ => rfl, rfl⟩
  | timedOut =>
    have looked : Adds Event.IsReading polled.2 (host.recorded.now polled).2.2 := (Adds.refl _ _).concat trivial
    have drains := pump_adds host false (.after (host.recorded.now polled).1 drainMillis) rounds
      { run with world := (host.recorded.now polled).2 }
    dsimp only at h
    rcases left : pump host.recorded false _ rounds _ with ⟨ended, rest⟩
    rw [left] at drains h
    obtain ⟨drained, more, reads⟩ := looked.trans drains
    have same : stopped = ⟨some .timedOut, code⟩ ∧ rest = last := by cases ended <;> cases h <;> exact ⟨rfl, rfl⟩
    obtain ⟨rfl, rfl⟩ := same
    refine ⟨ending, drained, code, ?_, halted, reads, ?_, rfl⟩
    · rw [more, whole, List.append_assoc]
    · rintro ⟨⟩

theorem await_watched (h : await host.recorded deadline rounds run = (.ok stopped, last)) :
    ∃ new, last.events = run.events ++ new ∧ Watched deadline stopped new := by
  obtain ⟨⟨world, notes⟩, collector, pipes⟩ := run
  rcases time : host.now world with ⟨now, looked⟩
  rcases answer : host.wait looked with ⟨exit, waited⟩
  rcases flag : host.cancelled waited with ⟨set, asked⟩
  simp only [await, Host.recorded_now, Host.recorded_wait, Host.recorded_cancelled, time, answer] at h
  have reads : Reads [] := by simp [Reads]
  split at h
  · cases h
  cases exit with
  | none =>
    obtain ⟨ending, drained, code, whole, halted, drains, undrained, rfl⟩ := stop_halted host h
    refine ⟨[.now now, .wait none] ++ ending ++ drained, by simpa [events] using whole, ?_⟩
    exact .stopped (.overdue reads) halted drains undrained
  | some exit =>
    simp only [flag] at h
    cases set with
    | true =>
      rw [if_pos rfl] at h
      obtain ⟨ending, drained, code, whole, halted, drains, undrained, rfl⟩ := stop_halted host h
      refine ⟨[.now now, .wait (some exit), .cancelled true] ++ ending ++ drained, by simpa [events] using whole, ?_⟩
      exact .stopped (.overtaken reads) halted drains undrained
    | false =>
      cases h
      exact ⟨[.now now, .wait (some exit), .cancelled false], by simp [events], .exited reads⟩

theorem watch_watched (h : watch host.recorded deadline rounds run = (.ok stopped, last)) :
    ∃ new, last.events = run.events ++ new ∧ Watched deadline stopped new := by
  rw [watch] at h
  rcases ended : pump host.recorded true deadline rounds run with ⟨cause, done⟩
  rw [ended] at h
  obtain ⟨_, told, ⟨reading, rfl, reads⟩, pumped, ends⟩ := pump_told host ended
  have stops {cause : StopCause} (broken : BrokenOff deadline cause (reading ++ told))
      (h : stop host.recorded rounds cause done = (.ok stopped, last)) :
      ∃ new, last.events = run.events ++ new ∧ Watched deadline stopped new := by
    obtain ⟨ending, drained, code, whole, halted, drains, undrained, rfl⟩ := stop_halted host h
    refine ⟨reading ++ told ++ ending ++ drained, by simp [whole, pumped], ?_⟩
    exact .stopped broken halted drains undrained
  cases ends with
  | endOfFile =>
    obtain ⟨new, whole, watched⟩ := await_watched host h
    exact ⟨reading ++ new, by simp [whole, pumped], watched.behind reads⟩
  | cancelled => exact stops (.flagged reads) h
  | timedOut late => exact stops (.expired reads late) h
  | farDeadline | outOfRounds => cases h

end Run

theorem Watched.seen {stopped : Stopped} (h : Watched deadline stopped events)
    (cancelled : stopped.cause = some .cancelled) : .cancelled true ∈ events := by
  cases h with
  | exited => cases cancelled
  | stopped broken _ _ _ =>
    cases cancelled
    cases broken <;> simp

end LineProbe
