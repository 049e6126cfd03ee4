import LineProbe.Result.Basic

/-!
# Fusing chunks into results

Chunks with the same tag become one result, the results are ordered by line, and the lines before the last error are
filled up with empty results.
-/

namespace LineProbe

def payloadSeparator : Text := "  "

/-- What is known of the chunks read so far: which they are, the trimmed payloads of each line, and the lines with an
error. -/
structure Fusion where
  seen : List Chunk
  payloads : List (Nat × List Text)
  errors : List Nat
deriving DecidableEq, Repr

namespace Fusion

def empty : Fusion :=
  ⟨[], [], []⟩

def addAt (line : Nat) (payload : Text) : List (Nat × List Text) → List (Nat × List Text)
  | [] => [(line, [payload])]
  | entry :: entries =>
    if entry.1 = line then (line, entry.2 ++ [payload]) :: entries else entry :: addAt line payload entries

/-- Takes in a chunk with its tag. One without a tag says nothing. -/
def note (fusion : Fusion) (chunk : Chunk) : Option (Nat × Text) → Fusion
  | none => { fusion with seen := chunk :: fusion.seen }
  | some (line, payload) =>
    { seen := chunk :: fusion.seen
      payloads := addAt line (Text.trim payload) fusion.payloads
      errors := if chunk.isError then line :: fusion.errors else fusion.errors }

/-- Takes in a chunk, unless it repeats an earlier one. -/
def add (fusion : Fusion) (chunk : Chunk) : Except DigitLimitError Fusion :=
  if chunk ∈ fusion.seen then .ok fusion else return fusion.note chunk (← parseTag chunk.text)

def ofChunks (chunks : List Chunk) : Except DigitLimitError Fusion :=
  chunks.foldlM add empty

def result? (fusion : Fusion) (entry : Nat × List Text) : Option LineResult :=
  let value := Text.join payloadSeparator (entry.2.filter (· ≠ []))
  if value = [] then none else some ⟨entry.1, encodePayload value, fusion.errors.contains entry.1⟩

def results (fusion : Fusion) : List LineResult :=
  (fusion.payloads.mergeSort fun entry other => entry.1 ≤ other.1).filterMap fusion.result?

end Fusion

/-- One result for each line that has something to show, in the order of the lines. -/
def fuse (chunks : List Chunk) : Except DigitLimitError (List LineResult) := do
  let fusion ← Fusion.ofChunks chunks
  return fusion.results

def resultAt (results : List LineResult) (line : Int) : LineResult :=
  (results.reverse.find? (·.line == line)).getD (.empty line)

def lastLine (results : List LineResult) : Int :=
  match results.map LineResult.line with
  | [] => -1
  | line :: lines => lines.foldl max line

def expandTo (results : List LineResult) (length : Int) : List LineResult :=
  (List.range length.toNat).map fun (line : Nat) => resultAt results line

def expand (results : List LineResult) : List LineResult :=
  expandTo results (lastLine results + 1)

/-- Fills the lines up to the last error with empty results. -/
def backfill (results : List LineResult) : List LineResult :=
  let errors := results.filter LineResult.isError
  if errors.isEmpty then results
  else
    let limit := lastLine errors + 1
    expandTo (results.filter (·.line < limit)) limit ++ results.filter (limit ≤ ·.line)

end LineProbe
