import LineProbe.Number.Integer
import LineProbe.Probe

/-!
# Line maps

A line map says which line of the script a line of the instrumented program belongs to.
-/

namespace LineProbe

/-- A map from generated lines to lines of the script. Each generated line occurs at most once. -/
structure LineMap where
  entries : List (Int × Int)
deriving DecidableEq, Repr

namespace LineMap

def empty : LineMap :=
  ⟨[]⟩

def setEntry (generated source : Int) : List (Int × Int) → List (Int × Int)
  | [] => [(generated, source)]
  | entry :: entries =>
    if entry.1 = generated then (generated, source) :: entries
    else entry :: setEntry generated source entries

def record (map : LineMap) (generated source : Int) : LineMap :=
  ⟨setEntry generated source map.entries⟩

def get? (map : LineMap) (generated : Int) : Option Int :=
  (map.entries.find? fun entry => entry.1 == generated).map Prod.snd

def resolve (map : LineMap) (generated : Int) : Int :=
  (map.get? generated).getD generated

def size (map : LineMap) : Nat :=
  map.entries.length

def contains (map : LineMap) (generated : Int) : Bool :=
  (map.get? generated).isSome

def toSortedList (map : LineMap) : List (Int × Int) :=
  map.entries.mergeSort fun a b => a.1 ≤ b.1

/-! ## Rebuilding a map from probes -/

def probeTarget (statement : Text) : Except DigitLimitError (Option Nat) :=
  match Probe.lineDigits? statement with
  | none => .ok none
  | some digits => (Text.readDigits digits).map some

def depth (line : Text) : Nat :=
  (Text.leadingBlanks line).length

def followingProbe (own : Nat) : List Text → Except DigitLimitError (Option Nat)
  | [] => .ok none
  | line :: rest =>
    if Text.trim line = [] || own < depth line then followingProbe own rest
    else if depth line < own then .ok none
    else probeTarget line

def reportingProbe (line : Text) (rest : List Text) : Except DigitLimitError (Option Nat) :=
  if Text.trim line = [] || Text.endsWithChar (Text.trimRight line) ':' then .ok none
  else followingProbe (depth line) rest

def rebuild (current : Option Nat) (index : Nat) :
    List Text → Except DigitLimitError (List (Int × Int))
  | [] => .ok []
  | line :: rest => do
    match ← probeTarget line with
    | some target =>
      let later ← rebuild (some target) (index + 1) rest
      return ((index : Int), (target : Int)) :: later
    | none =>
      let owner := (← reportingProbe line rest).or current
      let later ← rebuild current (index + 1) rest
      return (owner.map fun source => ((index : Int), (source : Int))).toList ++ later

/-- The map of a program that is given as text. A statement with a probe behind it, at its own depth,
belongs to the line of that probe; any other line belongs to the line of the latest probe above it. -/
def ofProgramText (text : Text) : Except DigitLimitError LineMap := do
  return ⟨← rebuild none 0 (Text.splitNewlines text)⟩

def firstProbe : List Text → Except DigitLimitError (Option Nat)
  | [] => .ok none
  | line :: rest => do
    match ← probeTarget line with
    | some target => return some target
    | none => firstProbe rest

def nearestProbeBefore (lines : List Text) (generated : Int) : Except DigitLimitError (Option Nat) :=
  if generated < 0 then .ok none else firstProbe (lines.take (generated.toNat + 1)).reverse

end LineMap

end LineProbe
