import LineProbe.Proofs.DigitLimit

/-!
# A collector is finalized once

A collector is fed, told of a timeout and asked for its results in any order, while the flag of its run may be set at
any moment.
-/

namespace LineProbe

namespace Collector

def feed (collector : Collector) (cancelled : Bool) : Pipe → Text → Collector
  | .output, text => collector.feedOutput cancelled text
  | .errors, text => collector.feedErrors cancelled text

variable {collector : Collector}

theorem feed_of_not_accepts (h : collector.accepts cancelled = false) (pipe : Pipe) (text : Text) :
    collector.feed cancelled pipe text = collector := by
  cases pipe with
  | output => rw [feed, feedOutput, if_neg (by simp [h])]
  | errors => rw [feed, feedErrors, if_neg (by simp [h])]

theorem finish_of_results {results : List LineResult} (h : collector.results = some results) (code : Option Int) :
    collector.finish cancelled code = .ok (results, collector) := by
  rw [finish, h]

theorem finish_of_cancelled (h : collector.results = none) (code : Option Int) :
    collector.finish true code = .ok ([], { collector with chunks := [], results := some [] }) := by
  rw [finish, h, if_pos rfl]

end Collector

/-! ## Requests -/

structure Intake where
  collector : Collector
  cancelled : Bool

namespace Intake

inductive Request where
  | feed (pipe : Pipe) (text : Text)
  | timedOut (ms : Int)
  | cancel
  | finish (code : Option Int)

inductive Reply where
  | taken (accepted : Bool)
  | done
  | results (results : List LineResult)
  | failed (cause : DigitLimitError)

inductive Step : Intake → Request → Reply → Intake → Prop where
  | feed (intake : Intake) (pipe : Pipe) (text : Text) :
    Step intake (.feed pipe text) (.taken (intake.collector.accepts intake.cancelled))
      { intake with collector := intake.collector.feed intake.cancelled pipe text }
  | timedOut (intake : Intake) (ms : Int) :
    Step intake (.timedOut ms) .done { intake with collector := intake.collector.markTimedOut ms }
  | cancel (intake : Intake) : Step intake .cancel .done { intake with cancelled := true }
  | finish {intake : Intake} {code : Option Int} {results : List LineResult} {finished : Collector}
    (ends : intake.collector.finish intake.cancelled code = .ok (results, finished)) :
    Step intake (.finish code) (.results results) { intake with collector := finished }
  | failed {intake : Intake} {code : Option Int} {cause : DigitLimitError} {left : Collector}
    (fails : intake.collector.finish intake.cancelled code = .error cause) (running : left.results = none) :
    Step intake (.finish code) (.failed cause) { intake with collector := left }

inductive Run : Intake → List (Request × Reply) → Intake → Prop where
  | nil (intake : Intake) : Run intake [] intake
  | cons {intake next last : Intake} {request : Request} {reply : Reply} {rest : List (Request × Reply)}
    (step : Step intake request reply next) (run : Run next rest last) : Run intake ((request, reply) :: rest) last

/-- A request has this reply, and no other, and what it leaves is as expected. -/
def Answers (intake : Intake) (request : Request) (reply : Reply) (left : Intake → Prop) : Prop :=
  (∃ next, Step intake request reply next) ∧
    ∀ other next, Step intake request other next → other = reply ∧ left next

variable {intake next last : Intake}

theorem answers_finish (h : intake.collector.finish intake.cancelled code = .ok (results, finished)) :
    intake.Answers (.finish code) (.results results) (· = { intake with collector := finished }) := by
  refine ⟨⟨_, .finish h⟩, ?_⟩
  intro other next step
  cases step with
  | finish ends =>
    cases h.symm.trans ends
    exact ⟨rfl, rfl⟩
  | failed fails => cases h.symm.trans fails

theorem Answers.imp (h : intake.Answers request reply left) (weaken : ∀ next, left next → wider next) :
    intake.Answers request reply wider :=
  ⟨h.1, fun other next step => (h.2 other next step).imp_right (weaken next)⟩

/-! ## Frozen collectors -/

theorem Step.cancelled (step : Step intake request reply next) (h : intake.cancelled) : next.cancelled := by
  cases step with
  | cancel => rfl
  | _ => exact h

structure Voided (intake : Intake) : Prop where
  cancelled : intake.cancelled = true
  results : intake.collector.results = none ∨ intake.collector.results = some [] ∧ intake.collector.chunks = []

theorem Voided.answers_finish (h : intake.Voided) (code : Option Int) :
    intake.Answers (.finish code) (.results []) fun next => next.Voided ∧ next.collector.chunks = [] := by
  rcases h.results with running | ⟨results, chunks⟩
  · have ends := Collector.finish_of_cancelled running code
    rw [← h.cancelled] at ends
    apply (Intake.answers_finish ends).imp
    rintro _ rfl
    exact ⟨⟨h.cancelled, .inr ⟨rfl, rfl⟩⟩, rfl⟩
  · apply (Intake.answers_finish (Collector.finish_of_results results code)).imp
    rintro _ rfl
    exact ⟨h, chunks⟩

theorem Voided.step (h : intake.Voided) (step : Step intake request reply next) : next.Voided := by
  cases step with
  | feed pipe text =>
    have refused : intake.collector.accepts intake.cancelled = false := by simp [Collector.accepts, h.cancelled]
    rwa [Collector.feed_of_not_accepts refused]
  | timedOut ms => exact ⟨h.cancelled, h.results⟩
  | cancel => exact ⟨rfl, h.results⟩
  | finish ends => exact ((h.answers_finish _).2 _ _ (.finish ends)).2.1
  | failed fails running => cases ((h.answers_finish _).2 _ _ (.failed fails running)).1

theorem Voided.run (h : intake.Voided) (run : Run intake history last) : last.Voided := by
  induction run with
  | nil => exact h
  | cons step run ih => exact ih (h.step step)

theorem Run.cancelled (run : Run intake history last) (h : intake.cancelled) : last.cancelled := by
  induction run with
  | nil => exact h
  | cons step run ih => exact ih (step.cancelled h)

end Intake

end LineProbe
