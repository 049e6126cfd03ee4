import LineProbe.Instrument.Program
import LineProbe.Result.Fuse
import LineProbe.Run.Splitter

/-!
# Collecting the output of a run

A collector takes in what a run prints and turns it into results when the run ends.
-/

namespace LineProbe

/-- A program to run: generated together with a line map, or only its text. -/
inductive Runnable where
  | generated (program : GeneratedProgram)
  | bare (text : Text)
deriving Repr

def Runnable.text : Runnable → Text
  | .generated program => program.text
  | .bare text => text

def Runnable.lineMap : Runnable → Except DigitLimitError LineMap
  | .generated program => .ok program.lineMap
  | .bare text => LineMap.ofProgramText text

/-! ## Error output -/

namespace ErrorOutput

def guardAt? (text : Text) : Option (Text × Text) :=
  let rest := text.drop Probe.guardMark.length
  if Text.startsWith text Probe.guardMark && startsWithTag rest then
    let digits := tagDigits rest
    some (digits, Text.trim (rest.drop (digits.length + 1)))
  else none

def guardIn? : Text → Option (Text × Text)
  | [] => none
  | c :: rest => (guardAt? (c :: rest)).or (guardIn? rest)

def lastGuard? (text : Text) : Option (Text × Text) :=
  (Text.splitNewlines text).reverse.findSome? guardIn?

def numbersAfter (lead : Text) (wholeWord : Bool) (previous : Option Char) : Text → List Text
  | [] => []
  | c :: rest =>
    let digits := tagDigits ((c :: rest).drop lead.length)
    let later := numbersAfter lead wholeWord (some c) rest
    if Text.startsWith (c :: rest) lead && digits ≠ [] && !(wholeWord && previous.any Text.isWordChar)
    then digits :: later
    else later

def lastLineNumber? (text : Text) : Option Text :=
  (numbersAfter "File \"<string>\", line " false none text).getLast?.or
    (numbersAfter "line " true none text).getLast?

def isLineBreak (c : Char) : Bool :=
  c = '\n' || c = '\r' || c = '\x0b' || c = '\x0c' || c = '\x1c' || c = '\x1d' || c = '\x1e' ||
    c = '\u0085' || c = '\u2028' || c = '\u2029'

def lines (text : Text) : List Text :=
  text.splitOnP isLineBreak

def lastLine (text : Text) : Text :=
  (((lines text).map Text.trim).reverse.find? (· ≠ [])).getD []

def failureMarks : List Text :=
  ["Traceback (most recent call last)", "Error:", "File \"<string>\""]

def reportsFailure (code : Option Int) (text : Text) : Bool :=
  !(code == none || code == some 0) || failureMarks.any (Text.includes · text)

end ErrorOutput

/-! ## The collector -/

/-- What a run has printed so far, and its results once it has ended. -/
structure Collector where
  lineMap : Option LineMap
  programLines : List Text
  splitter : Splitter
  chunks : List Chunk
  errors : Text
  timeout : Option Int
  results : Option (List LineResult)
  guardTripped : Bool
deriving Repr

namespace Collector

def internalLabel : Text := "internal error"

def start (program : Option Runnable) : Except DigitLimitError Collector := do
  let lineMap ←
    match program with
    | none => .ok none
    | some program => program.lineMap.map some
  return { lineMap
           programLines := (program.map fun p => Text.splitNewlines p.text).getD []
           splitter := .start
           chunks := []
           errors := []
           timeout := none
           results := none
           guardTripped := false }

def accepts (collector : Collector) (cancelled : Bool) : Bool :=
  !cancelled && collector.results.isNone

def feedOutput (collector : Collector) (cancelled : Bool) (text : Text) : Collector :=
  if collector.accepts cancelled then
    let (parts, splitter) := collector.splitter.feed text
    { collector with splitter, chunks := collector.chunks ++ parts.map (⟨·, false⟩) }
  else collector

def feedErrors (collector : Collector) (cancelled : Bool) (text : Text) : Collector :=
  if collector.accepts cancelled then { collector with errors := collector.errors ++ text }
  else collector

def markTimedOut (collector : Collector) (ms : Int) : Collector :=
  { collector with timeout := some ms }

def firstTag : List Chunk → Except DigitLimitError (Option Nat)
  | [] => .ok none
  | chunk :: chunks => do
    match ← parseTag chunk.text with
    | some (line, _) => return some line
    | none => firstTag chunks

def timeoutChunk (chunks : List Chunk) (ms : Int) : Except DigitLimitError Chunk := do
  let line : Nat := ((← firstTag chunks.reverse).map (· + 1)).getD 0
  let line ← Text.writeInteger line
  let ms ← Text.writeInteger ms
  return ⟨line ++ ":Timed out after " ++ ms ++ " ms", true⟩

def errorLine (collector : Collector) : Except DigitLimitError (Option Int) :=
  match ErrorOutput.lastLineNumber? collector.errors, collector.lineMap with
  | some digits, some lineMap => do
    let generated : Int := (← Text.readDigits digits) - 1
    match lineMap.get? generated with
    | some line => return some line
    | none =>
      let line ← LineMap.nearestProbeBefore collector.programLines generated
      return line.map Int.ofNat
  | _, _ => .ok none

def errorChunk (collector : Collector) (code : Option Int) :
    Except DigitLimitError (Option Chunk) :=
  match ErrorOutput.lastGuard? collector.errors with
  | some (digits, message) => .ok (some ⟨digits ++ ':' :: message, true⟩)
  | none =>
    if Text.trim collector.errors ≠ [] && ErrorOutput.reportsFailure code collector.errors then do
      let message := ErrorOutput.lastLine collector.errors
      match ← collector.errorLine with
      | some line => return some ⟨(← Text.writeInteger line) ++ ':' :: message, true⟩
      | none => return some ⟨"0:" ++ internalLabel ++ ": " ++ message, true⟩
    else .ok none

def finish (collector : Collector) (cancelled : Bool) (code : Option Int) :
    Except DigitLimitError (List LineResult × Collector) :=
  match collector.results with
  | some results => .ok (results, collector)
  | none =>
    if cancelled then .ok ([], { collector with chunks := [], results := some [] })
    else do
      let (parts, splitter) := collector.splitter.flush
      let chunks := collector.chunks ++ parts.map (⟨·, false⟩)
      let timeout ←
        match collector.timeout with
        | none => .ok none
        | some ms => (timeoutChunk chunks ms).map some
      let error ← collector.errorChunk code
      let chunks := chunks ++ timeout.toList ++ error.toList
      let results := backfill (← fuse chunks)
      return (results, { collector with
        splitter
        chunks
        results := some results
        guardTripped := (ErrorOutput.lastGuard? collector.errors).isSome })

end Collector

end LineProbe
