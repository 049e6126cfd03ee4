import LineProbe.Text.Basic

/-!
# Debouncing

A request that is scheduled under a key waits for a delay.
-/

namespace LineProbe

/-- A timer, and what is done when it fires. No two timers have the same number. -/
structure Timer (α : Type) where
  number : Nat
  key : Text
  due : Int
  action : α
deriving DecidableEq, Repr

/-- A debouncer and the event loop that it starts its timers in. -/
structure Debouncer (α : Type) where
  now : Int
  delay : Int
  next : Nat
  timers : List (Timer α)
  handles : List (Text × Nat)
deriving DecidableEq, Repr

namespace Debouncer

variable {α : Type}

def start (delay : Int) : Debouncer α :=
  ⟨0, delay, 0, [], []⟩

def handle? (debouncer : Debouncer α) (key : Text) : Option Nat :=
  (debouncer.handles.find? (·.1 = key)).map Prod.snd

def pending (debouncer : Debouncer α) (key : Text) : Bool :=
  (debouncer.handle? key).isSome

def release (debouncer : Debouncer α) (key : Text) : Debouncer α :=
  { debouncer with handles := debouncer.handles.filter (·.1 ≠ key) }

def stop (debouncer : Debouncer α) (number : Nat) : Debouncer α :=
  { debouncer with timers := debouncer.timers.filter (·.number ≠ number) }

def cancel (debouncer : Debouncer α) (key : Text) : Debouncer α :=
  match debouncer.handle? key with
  | none => debouncer
  | some number => (debouncer.release key).stop number

def timerFor (debouncer : Debouncer α) (key : Text) (action : α) : Timer α :=
  ⟨debouncer.next, key, debouncer.now + debouncer.delay, action⟩

def launch (debouncer : Debouncer α) (timer : Timer α) : Debouncer α :=
  { debouncer with
    next := timer.number + 1
    timers := debouncer.timers ++ [timer]
    handles := (debouncer.release timer.key).handles ++ [(timer.key, timer.number)] }

def schedule (debouncer : Debouncer α) (key : Text) (action : α) : Debouncer α :=
  (debouncer.cancel key).launch (debouncer.timerFor key action)

def setDelay (debouncer : Debouncer α) (delay : Int) : Debouncer α :=
  { debouncer with delay }

def fire (debouncer : Debouncer α) (timer : Timer α) : Debouncer α :=
  (debouncer.stop timer.number).release timer.key

def wait (debouncer : Debouncer α) (millis : Int) : Debouncer α :=
  { debouncer with now := debouncer.now + millis }

def due (debouncer : Debouncer α) : List (Timer α) :=
  (debouncer.timers.filter (·.due ≤ debouncer.now)).mergeSort (·.due ≤ ·.due)

def advance (debouncer : Debouncer α) (millis : Int) : List (Timer α) × Debouncer α :=
  let debouncer := debouncer.wait millis
  (debouncer.due, debouncer.due.foldl fire debouncer)

end Debouncer

end LineProbe
