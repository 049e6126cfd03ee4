import LineProbe.Invariant
import LineProbe.Value.Integer

/-!
# Deadlines

A deadline is a reading of the clock, in nanoseconds.
-/

namespace LineProbe

def nanosPerMilli : Int := 1000000

def nanosPerSecond : Nat := 1000000000

/-- The time at which a run is stopped. -/
structure Deadline where
  nanos : Int
deriving DecidableEq, Repr

inductive TimeoutError where
  | coercion (cause : CoercionError)
  | violation (violation : Violation)
deriving Repr

def negativeTimeout (ms : Value) : Violation :=
  ⟨"invalid timeout ms", [("ms", ms)]⟩

namespace Deadline

def after (now ms : Int) : Deadline :=
  ⟨now + ms * nanosPerMilli⟩

def ofTimeout (now : Int) (ms : Value) : Except TimeoutError Deadline :=
  match ms.toInteger with
  | .error cause => .error (.coercion cause)
  | .ok n => if n < 0 then .error (.violation (negativeTimeout ms)) else .ok (after now n)

def remaining (deadline : Deadline) (now : Int) : Nat :=
  (deadline.nanos - now).toNat

def remainingSeconds? (deadline : Deadline) (now : Int) : Option Binary64 :=
  match Binary64.ofRatio false (deadline.remaining now) nanosPerSecond with
  | .infinite _ => none
  | seconds => some seconds

def farMessage : Text := "integer division result too large for a float"

def expired (deadline : Deadline) (now : Int) : Bool :=
  deadline.nanos ≤ now

end Deadline

end LineProbe
