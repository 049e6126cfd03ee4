import LineProbe.Instrument.Range
import LineProbe.LineMap

/-!
# Instrumented programs

The whole program for a script: imports from `__future__`, which have to come first, then the support code, then the
instrumented body; with it the line of the script for every generated line.
-/

namespace LineProbe

/-- A program to run, and what is known about its lines. -/
structure GeneratedProgram where
  text : Text
  lineMap : LineMap
deriving Repr

namespace Instrument

def isFutureImport (line : Text) : Bool :=
  let imports := do
    let rest ← Construct.afterSpacedWord? "from" line
    let rest ← Construct.afterSpacedWord? "__future__" rest
    if wholeWordAt rest "import" 0 then some () else none
  imports.isSome && (findChar? line '(').isNone

def futureImports (lines : List Text) : List Nat :=
  lines.zipIdx.filterMap fun (line, index) => if isFutureImport line then some index else none

structure Program where
  source : List Text
  future : List GeneratedLine
  body : List GeneratedLine

def Program.lines (program : Program) : List GeneratedLine :=
  program.future ++ Probe.preamble.map (⟨·, none⟩) ++ program.body

def Program.preambleLength (program : Program) : Nat :=
  program.future.length + Probe.preamble.length

def Program.text (program : Program) : Text :=
  Text.joinLines (program.lines.map GeneratedLine.text) ++ ['\n']

def Program.lineMap (program : Program) : LineMap :=
  ⟨program.lines.zipIdx.filterMap fun (line, index) =>
    line.origin.map fun origin => ((index : Int), origin)⟩

def Program.generated (program : Program) : GeneratedProgram :=
  ⟨program.text, program.lineMap⟩

def instrument (source : Text) (indent : IndentConfig) (callLimit : Int) :
    Except InstrumentError Program := do
  let lines := Text.splitLines source
  let future := futureImports lines
  let (pieces, _) ← wholeScript ⟨lines, indent, callLimit, future.map Int.ofNat⟩
  return {
    source := lines
    future := future.map fun index => ⟨lines.getD index [], some (index : Int)⟩
    body := renderPieces indent pieces }

end Instrument

end LineProbe
