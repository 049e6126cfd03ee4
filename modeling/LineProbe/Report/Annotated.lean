import LineProbe.Config.Display
import LineProbe.Report.Style
import LineProbe.Value.Json

/-!
# Reports

The results of a run beside the lines of the script, and the response with the results as data.
-/

namespace LineProbe

/-! ## Annotated lines -/

namespace Annotated

def colorOf (display : DisplayConfig) (result : LineResult) (active : Bool) : Text :=
  match result.isError, active with
  | true, true => display.activeError
  | true, false => display.error
  | false, true => display.active
  | false, false => display.normal

def note (display : DisplayConfig) (result : LineResult) (active : Bool) : Except Failure Text :=
  Style.colored (colorOf display result active) ("# " ++ result.value)

def resultFor? (results : List LineResult) (line : Int) : Option LineResult :=
  results.reverse.find? (·.line = line)

def padded (width : Nat) (text : Text) : Text :=
  text ++ List.replicate (width - text.length) ' '

def widest (lines : List Text) : Nat :=
  (lines.map List.length).foldl max 0

def beside (width : Nat) (text : Text) (display : DisplayConfig) (result : LineResult)
    (active : Bool) : Except Failure Text := do
  return padded width text ++ "  " ++ (← note display result active)

def line (display : DisplayConfig) (results : List LineResult) (active : Option Int) (width : Nat)
    (text : Text) (index : Nat) : Except Failure Text :=
  match resultFor? results index with
  | some result =>
    if result.value = [] then .ok text
    else beside width text display result (active = some (index : Int))
  | none => .ok text

def linesFrom (results : List LineResult) (first : Int) : List Int :=
  (((results.map LineResult.line).filter (first ≤ ·)).mergeSort (· ≤ ·)).eraseDups

def render (lines : List Text) (results : List LineResult) (display : DisplayConfig)
    (active : Option Int) : Except Failure (List Text) := do
  let width := widest lines
  let shown ← lines.zipIdx.mapM fun (text, index) => line display results active width text index
  let behind ← (linesFrom results lines.length).mapM fun index =>
    beside width [] display (resultAt results index) false
  return shown ++ behind

end Annotated

/-! ## Responses -/

structure Response where
  state : Text
  results : List LineResult
  errors : List Text
deriving DecidableEq, Repr

namespace Response

def ofOutcome (outcome : Outcome) : Response :=
  ⟨outcome.state.name, outcome.results, []⟩

def ofError (message : Text) : Response :=
  ⟨"idle", [], [message]⟩

def toValue (response : Response) : Value :=
  let result (r : LineResult) : Value :=
    .table [("line", .int r.line), ("value", .str r.value), ("is_error", .bool r.isError)]
  .table [("state", .str response.state), ("results", .list (response.results.map result)),
    ("errors", .list (response.errors.map .str))]

end Response

end LineProbe
