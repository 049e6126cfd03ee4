import LineProbe.Instrument.Step

/-!
# Instrumenting a range of lines

A range is worked through statement by statement, with the level of indentation and the prologue of the block that is
about to open carried along.
-/

namespace LineProbe.Instrument

/-! ## Blank lines -/

def followsDecorator (script : Script) (cursor : Int) : Bool :=
  ((script.lines.take cursor.toNat).reverse.find? (!isBlankLine ·)).any fun line =>
    (Text.trimLeft line).head? == some '@'

def isClauseLine (line : Text) : Bool :=
  let code := Text.trim line
  let word := Construct.firstWord code
  Construct.clauseKeywords.contains word && (word ≠ "case" || (findColon? code).isSome)

def blankLevel? (script : Script) (cursor : Int) (floor level : Nat) (after : List Text) :
    Option Nat :=
  if followsDecorator script cursor then none
  else
    match nextCode? after with
    | none => some floor
    | some next =>
      let nextLevel := script.indent.measure next
      if isClauseLine next then if level ≤ nextLevel then none else some level
      else some (min level nextLevel)

def blankPieces (script : Script) (cursor : Int) (floor level : Nat) (after : List Text) :
    List Piece :=
  (blankLevel? script cursor floor level after).toList.map fun level =>
    .injected level (.probe none) cursor

/-! ## Statements -/

def statementOf (script : Script) (source : LogicalStatement) (line : Text) (after : List Text) :
    Statement :=
  let indentation := Text.leadingBlanks line
  let directives := Directives.ofComment source.comment
  { first := source.first
    last := source.last
    level := script.indent.measure line
    indentation
    body := source.code.drop indentation.length
    directives
    mock := directives.mock
    after
    guarded := false
    reportsInterior := true }

def statementStep (script : Script) (source : LogicalStatement) (st : Statement) : Emit Step := do
  match ← classified st.body with
  | .decorator => do
    count .decorator
    return ⟨[.code source.text st.first st.last], st.level, []⟩
  | _ => do
    let pass ← get
    let (body, replaced) :=
      substituteBlocking st.body st.first st.directives script.callLimit pass.next
    set { pass with next := pass.next + replaced }
    if replaced = 0 then dispatch script st
    else dispatch script { st with body, mock := none, guarded := true }

/-! ## Mocked functions -/

structure MockedDef where
  name : Text
  params : List Text
  arguments : Text

def mockedDef? (st : Statement) : Emit (Option MockedDef) := do
  match ← classified st.body, st.mock with
  | .defHeader name params, some arguments =>
    return if Construct.firstWord st.body = "async" then none else some ⟨name, params, arguments⟩
  | _, _ => return none

def blockEnd? (config : IndentConfig) (level : Nat) :
    List (Except StatementError (Int × Text)) → Except StatementError (Option Int)
  | [] => .ok none
  | .error cause :: _ => .error cause
  | .ok (index, line) :: heads =>
    if !isBlankLine line && config.measure line ≤ level then .ok (some index)
    else blockEnd? config level heads

def blockLength (script : Script) (level : Nat) (index : Int) (lines : List Text) : Emit Nat :=
  match blockEnd? script.indent level (statementHeads script.lines index lines) with
  | .ok none => pure lines.length
  | .ok (some stop) => pure (stop - index).toNat
  | .error cause => throw (.statement cause)

def afterDefName? (name text : Text) : Option Text := do
  let rest ← Construct.afterSpacedWord? "def" text
  if Text.startsWith rest name && !wordCharAt rest name.length then some (rest.drop name.length)
  else none

def renameDef (name renamed : Text) : (previous : Option Char) → Text → Text
  | _, [] => []
  | previous, c :: rest =>
    let found := if previous.any Text.isWordChar then none else afterDefName? name (c :: rest)
    match found with
    | some behind => "def " ++ renamed ++ behind
    | none => c :: renameDef name renamed (some c) rest

def plainDef (config : IndentConfig) (source : LogicalStatement) (st : Statement)
    (block : List Text) : Emit (List Piece) := do
  let inner := st.level + 1
  let guards ← limitGuard st inner
  let body :=
    if hasBody config block st.level then
      block.zipIdx.map fun (line, offset) =>
        let index := st.last + 1 + (offset : Int)
        Piece.code line index index
    else [st.inject inner .pass]
  return .header source.text st.first st.last :: guards ++ body

/-! ## Ranges -/

def placePrologue (documents : Bool) (pending pieces : List Piece) : List Piece :=
  if documents then pieces ++ pending else pending ++ pieces

def nextStatement (script : Script) (cursor : Int) (line : Text) (rest : List Text) :
    Emit LogicalStatement :=
  match statementIn script.lines cursor line rest with
  | .ok source => pure source
  | .error cause => throw (.statement cause)

def range (script : Script) (floor level : Nat) (pending : List Piece) (cursor : Int) :
    List Text → Emit (List Piece)
  | [] => pure pending
  | line :: rest =>
    if script.hoisted.contains cursor then do
      let later ← range script floor level [] (cursor + 1) rest
      return pending ++ later
    else if isBlankLine line then do
      let later ← range script floor level [] (cursor + 1) rest
      return pending ++ blankPieces script cursor floor level rest ++ later
    else do
      let source ← nextStatement script cursor line rest
      let after := rest.drop source.extent
      let st := statementOf script source line after
      let documents := Construct.isDocstring line
      match ← mockedDef? st with
      | none => do
        let step ← statementStep script source st
        let later ← range script floor step.nextLevel step.prologue (source.last + 1) after
        return placePrologue documents pending step.pieces ++ later
      | some mocked => do
        count .mockedDef
        let inner := st.level + 1
        let length ← blockLength script st.level (st.last + 1) after
        let block := after.take length
        let asWritten ← plainDef script.indent source st block
        let shadow : Temp := ⟨.mocked, ← drawNumber⟩
        let header := renameDef mocked.name shadow.name none source.text
        let prologue := mocked.params.map (fun name => st.inject inner (.parameter name)) ++
          st.interior inner
        let body ←
          if hasBody script.indent block st.level then
            range script inner inner prologue (source.last + 1) block
          else pure (orPass st inner prologue)
        let pieces := asWritten ++ .header header st.first st.last :: body ++
          [st.inject st.level (.callMock shadow mocked.arguments)]
        let later ← range script floor st.level [] (source.last + 1 + length) (after.drop length)
        return placePrologue documents pending pieces ++ later
termination_by lines => lines.length
decreasing_by
  all_goals
    simp only [List.length_cons, List.length_take, List.length_drop]
    omega

/-- Instruments the lines from position `start` up to position `stop`, which begin at a level of
indentation. -/
def rangeOf (script : Script) (start stop : Int) (level : Nat) :
    Except InstrumentError (List Piece × Pass) := do
  let size : Int := script.lines.length
  if start < stop ∧ start < -size then throw (.statement .noLine)
  let lines := linesAlong script.lines start (min stop size)
  let found ← (range script level level [] start lines).run .start
  if start < stop ∧ size < stop then throw (.statement .noLine)
  return found

def wholeScript (script : Script) : Except InstrumentError (List Piece × Pass) :=
  (range script 0 0 [] 0 script.lines).run .start

end LineProbe.Instrument
