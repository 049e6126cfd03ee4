import LineProbe.Construct.Recognize
import LineProbe.Instrument.Piece
import LineProbe.Safety.Blocking
import LineProbe.Statement

/-!
# Instrumenting one statement

What each construct becomes: the pieces in its place, the level of indentation behind it, and, for the header of a
block, the prologue that must open the block.
-/

namespace LineProbe.Instrument

/-! ## Drawing numbers and counting statements -/

inductive StatementKind where
  | decorator
  | mockedDef
  | assignment
  | augmented
  | annotated
  | printCall
  | forHeader
  | returning
  | defHeader
  | blockHeader
  | inlineCompound
  | ignorable
  | plain
deriving DecidableEq, Repr

def kindOf : Construct → StatementKind
  | .decorator => .decorator
  | .assignment .. => .assignment
  | .augmented .. => .augmented
  | .annotated .. => .annotated
  | .printCall .. => .printCall
  | .forHeader .. => .forHeader
  | .returning .. => .returning
  | .defHeader .. => .defHeader
  | .blockHeader .. => .blockHeader
  | .inlineCompound .. => .inlineCompound
  | .ignorable .. => .ignorable
  | .plain => .plain

structure Pass where
  next : Nat
  seen : List StatementKind
deriving DecidableEq, Repr

def Pass.start : Pass :=
  ⟨1, []⟩

inductive InstrumentError where
  | header (fault : Signature.Fault)
  | statement (cause : StatementError)
deriving DecidableEq, Repr

def InstrumentError.message : InstrumentError → Text
  | .header fault => fault.message
  | .statement cause => cause.message

abbrev Emit := StateT Pass (Except InstrumentError)

def drawNumber : Emit Nat :=
  modifyGet fun pass => (pass.next, { pass with next := pass.next + 1 })

def count (kind : StatementKind) : Emit Unit :=
  modify fun pass => { pass with seen := kind :: pass.seen }

def classified (code : Text) : Emit Construct :=
  match Construct.classify code with
  | .ok construct => pure construct
  | .error fault => throw (.header fault)

/-! ## Scripts and statements -/

structure Script where
  lines : List Text
  indent : IndentConfig
  callLimit : Int
  hoisted : List Int

structure Statement where
  first : Int
  last : Int
  level : Nat
  indentation : Text
  body : Text
  directives : Directives
  mock : Option Text
  after : List Text
  guarded : Bool
  reportsInterior : Bool

structure Step where
  pieces : List Piece
  nextLevel : Nat
  prologue : List Piece

/-! ## Looking ahead -/

def nextCode? (lines : List Text) : Option Text :=
  lines.find? (!isBlankLine ·)

def nextLevel (config : IndentConfig) (lines : List Text) (default : Nat) : Nat :=
  ((nextCode? lines).map config.measure).getD default

def hasBody (config : IndentConfig) (lines : List Text) (level : Nat) : Bool :=
  (nextCode? lines).any fun line => level < config.measure line

def siblingBranches (config : IndentConfig) (level : Nat) :
    List (Except StatementError (Int × Text)) → Except StatementError (List Int)
  | [] => .ok []
  | .error cause :: _ => .error cause
  | .ok (index, line) :: heads =>
    if isBlankLine line || level < config.measure line then siblingBranches config level heads
    else if config.measure line = level &&
        ["elif", "else"].contains (String.ofList (Construct.firstWord (Text.trim line))) then
      (siblingBranches config level heads).map (index :: ·)
    else .ok []

/-! ## Pieces shared by several constructs -/

def Statement.inject (st : Statement) (level : Nat) (what : Injection) : Piece :=
  .injected level what st.first

def Statement.own (st : Statement) (body : Text) : Piece :=
  .code (st.indentation ++ body) st.first st.last

def Statement.heading (st : Statement) : Piece :=
  .header (st.indentation ++ st.body) st.first st.last

def Statement.bind (st : Statement) (temp : Temp) (value : Text) : Piece :=
  .binding st.indentation temp value st.first st.last

def Statement.interior (st : Statement) (level : Nat) : List Piece :=
  if st.reportsInterior then
    (List.range (st.last - st.first).toNat).map fun (offset : Nat) =>
      .injected level (.probe none) (st.first + 1 + offset)
  else []

def limitGuard (st : Statement) (level : Nat) : Emit (List Piece) :=
  match st.directives.limit with
  | none => pure []
  | some limit =>
    if st.guarded then pure []
    else do
      let site ← drawNumber
      return [st.inject level (.limitGuard site limit)]

/-! ## Simple statements -/

def assignmentStep (st : Statement) (target : Text) (valueStart : Nat) : Emit Step := do
  let value :=
    match st.mock with
    | none => st.body.drop valueStart
    | some mock => " (" ++ mock ++ ")"
  let guards ← limitGuard st st.level
  return ⟨guards ++ [st.own (st.body.take valueStart ++ value),
    st.inject st.level (.probe (some target))] ++ st.interior st.level, st.level, []⟩

def augmentedStep (st : Statement) (target operator : Text) (valueStart : Nat) : Emit Step := do
  let temp : Temp := ⟨.augmented, ← drawNumber⟩
  let value := st.mock.getD (Text.trim (st.body.drop valueStart))
  let guards ← limitGuard st st.level
  return ⟨guards ++ [st.bind temp ("(" ++ value ++ ")"),
    st.inject st.level (.probe (some (target ++ " " ++ operator ++ " " ++ temp.name))),
    st.inject st.level (.update target operator temp)] ++ st.interior st.level, st.level, []⟩

def isKeywordArgument (argument : Text) : Bool :=
  let name := Text.nameAtStart argument
  name ≠ [] && (Construct.afterEquals? (Text.trimLeft (argument.drop name.length))).isSome

def splicedArguments (line : Int) (arguments : Text) : Text :=
  let tag := Probe.tag line
  let comma := (findChar? arguments ',').getD arguments.length
  let first := arguments.take comma
  let rest := arguments.drop comma
  let stripped := Text.trim first
  if stripped = [] then tag ++ rest
  else if stripped.head? = some '*' ∨ isKeywordArgument stripped then tag ++ ", " ++ arguments
  else tag ++ " + str(" ++ first ++ ")" ++ rest

def printStep (st : Statement) (openParen closeParen : Nat) : Emit Step := do
  let arguments := Text.slice st.body (openParen + 1) closeParen
  let body := st.body.take (openParen + 1) ++ splicedArguments st.first arguments ++
    st.body.drop closeParen
  let guards ← limitGuard st st.level
  return ⟨guards ++ [st.own body] ++ st.interior st.level, st.level, []⟩

def returnStep (config : IndentConfig) (st : Statement) (value : Text) : Emit Step := do
  let guards ← limitGuard st st.level
  let value := st.mock.getD value
  let behind := nextLevel config st.after st.level
  if value = [] then
    return ⟨guards ++ st.interior st.level ++ [st.inject st.level (.probe none),
      st.inject st.level (.giveBack none)], behind, []⟩
  else
    let temp : Temp := ⟨.returned, ← drawNumber⟩
    return ⟨guards ++ st.interior st.level ++ [st.bind temp ("(" ++ value ++ ")"),
      st.inject st.level (.probe (some temp.name)), st.inject st.level (.giveBack (some temp))],
      behind, []⟩

def ignorableStep (config : IndentConfig) (st : Statement) : Emit Step := do
  let guards ← limitGuard st st.level
  return ⟨guards ++ st.interior st.level ++ [st.own st.body], nextLevel config st.after st.level, []⟩

def statementKeywords : List Text :=
  ["import", "from", "del", "global", "nonlocal", "assert", "yield", "await", "lambda", "not", "raise",
   "pass", "break", "continue", "return"]

def plainStep (st : Statement) : Emit Step := do
  let body :=
    match st.mock with
    | none => st.body
    | some mock =>
      if statementKeywords.contains (Construct.firstWord st.body) then st.body
      else "(" ++ mock ++ ")"
  let guards ← limitGuard st st.level
  return ⟨guards ++ [st.own body, st.inject st.level (.probe none)] ++ st.interior st.level,
    st.level, []⟩

/-! ## Headers of blocks -/

def branchMarks (script : Script) (st : Statement) : Construct → Emit (List Piece)
  | .forHeader .. => pure [st.inject st.level (.mark st.first)]
  | .blockHeader keyword =>
    if keyword = "while" then pure [st.inject st.level (.mark st.first)]
    else if keyword = "if" then
      let heads := statementHeads script.lines (st.last + 1) st.after
      match siblingBranches script.indent st.level heads with
      | .ok siblings => pure ((st.first :: siblings).map fun key => st.inject st.level (.mark key))
      | .error cause => throw (.statement cause)
    else pure []
  | _ => pure []

structure HeaderParts where
  before : List Piece
  header : List Piece
  prologue : List Piece

def headerParts (script : Script) (st : Statement) (construct : Construct) :
    Emit HeaderParts := do
  let inner := st.level + 1
  let marks ← branchMarks script st construct
  let parts : HeaderParts ←
    match construct with
    | .forHeader head iterable => do
      let temp : Temp := ⟨.iterated, ← drawNumber⟩
      pure ⟨marks ++ [st.bind temp iterable, st.inject st.level (.probe (some temp.name))],
        [.loopHead st.indentation head temp st.first], [st.inject inner .enter]⟩
    | .defHeader _ params =>
      pure ⟨marks, [st.heading], params.map fun name => st.inject inner (.parameter name)⟩
    | .blockHeader keyword =>
      pure ⟨marks ++ (if Construct.isProbed keyword then [st.inject st.level (.probe none)] else []),
        [st.heading], if Construct.isBranch keyword then [st.inject inner .enter] else []⟩
    | _ => pure ⟨marks, [st.heading], []⟩
  let guards ← limitGuard st inner
  return { parts with prologue := parts.prologue ++ guards ++ st.interior inner }

def orPass (st : Statement) (level : Nat) (pieces : List Piece) : List Piece :=
  if pieces.isEmpty then [st.inject level .pass] else pieces

def headerStep (script : Script) (st : Statement) (construct : Construct) : Emit Step := do
  let parts ← headerParts script st construct
  let inner := st.level + 1
  let pieces := parts.before ++ parts.header
  if hasBody script.indent st.after st.level then return ⟨pieces, inner, parts.prologue⟩
  else return ⟨pieces ++ orPass st inner parts.prologue, inner, []⟩

def inlineHeader (code : Text) : Emit Construct := do
  let construct ← classified code
  return if construct.opensBlock then construct else .blockHeader (Construct.firstWord code)

def Statement.inlineHead (st : Statement) (colon : Nat) : Statement :=
  { st with body := st.body.take (colon + 1), directives := .none, mock := none }

def Statement.inlineBody (config : IndentConfig) (st : Statement) (colon : Nat) : Statement :=
  { st with
    level := st.level + 1
    indentation := config.render (st.level + 1)
    body := Text.trimLeft (st.body.drop (colon + 1))
    reportsInterior := false }

/-! ## All statements -/

theorem classify_nil : Construct.classify [] = .ok .plain :=
  rfl

theorem length_inlineBody_lt {config : IndentConfig} {st : Statement} {colon : Nat}
    (h : Construct.classify st.body = .ok (.inlineCompound colon)) :
    (st.inlineBody config colon).body.length < st.body.length := by
  have nonempty : st.body ≠ [] := by
    intro empty
    rw [empty, classify_nil] at h
    cases h
  have pos := List.length_pos_iff.2 nonempty
  have le := Text.length_trimLeft_le (st.body.drop (colon + 1))
  simp only [Statement.inlineBody, List.length_drop] at le ⊢
  omega

def dispatch (script : Script) (st : Statement) : Emit Step :=
  match _h : Construct.classify st.body with
  | .error fault => throw (.header fault)
  | .ok construct => do
    count (kindOf construct)
    match _k : construct with
    | .augmented target operator valueStart => augmentedStep st target operator valueStart
    | .assignment target valueStart | .annotated target valueStart =>
      assignmentStep st target valueStart
    | .printCall openParen closeParen => printStep st openParen closeParen
    | .returning value => returnStep script.indent st value
    | .forHeader head iterable => headerStep script st (.forHeader head iterable)
    | .defHeader name params => headerStep script st (.defHeader name params)
    | .blockHeader keyword => headerStep script st (.blockHeader keyword)
    | .inlineCompound colon => do
      let head := st.inlineHead colon
      let parts ← headerParts script head (← inlineHeader head.body)
      let inner ← dispatch script (st.inlineBody script.indent colon)
      return ⟨parts.before ++ parts.header ++ parts.prologue ++ inner.pieces ++ inner.prologue,
        st.level, []⟩
    | .ignorable _ => ignorableStep script.indent st
    | .decorator | .plain => plainStep st
termination_by st.body.length
decreasing_by exact length_inlineBody_lt (_k ▸ _h)

end LineProbe.Instrument
