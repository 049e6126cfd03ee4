import LineProbe.Instrument.Step

/-!
# What a statement becomes

The computations of `Instrument/Step` as relations between the state of a pass before and after them.
-/

namespace LineProbe.Instrument

variable {pass : Pass}

/-! ## Running computations -/

theorem exists_ok {ε : Type} {result : Except ε α} (h : result.isOk) : ∃ value, result = .ok value := by
  cases result with
  | error cause => cases h
  | ok value => exact ⟨value, rfl⟩

theorem run_bind_ok {next : α → Emit β} {result : β × Pass} :
    (first >>= next).run pass = .ok result ↔
      ∃ value between, first.run pass = .ok (value, between) ∧ (next value).run between = .ok result := by
  rw [StateT.run_bind]
  cases first.run pass with
  | error cause => simp [bind, Except.bind]
  | ok found =>
    obtain ⟨value, between⟩ := found
    constructor
    · intro h
      exact ⟨value, between, rfl, h⟩
    · rintro ⟨_, _, found, h⟩
      cases found
      exact h

theorem run_bind_error {next : α → Emit β} {error : InstrumentError} :
    (first >>= next).run pass = .error error ↔
      first.run pass = .error error ∨
        ∃ value between, first.run pass = .ok (value, between) ∧ (next value).run between = .error error := by
  rw [StateT.run_bind]
  cases first.run pass with
  | error cause => simp [bind, Except.bind]
  | ok found =>
    obtain ⟨value, between⟩ := found
    constructor
    · intro h
      exact .inr ⟨value, between, rfl, h⟩
    · rintro (⟨⟨⟩⟩ | ⟨_, _, found, h⟩)
      cases found
      exact h

theorem run_pure_ok : (pure value : Emit α).run pass = .ok result ↔ (value, pass) = result := by
  rw [StateT.run_pure]
  simp [pure, Except.pure]

theorem run_throw_ok : ¬ (throw cause : Emit α).run pass = .ok result := by
  simp [throw, throwThe, MonadExceptOf.throw, StateT.run, StateT.lift, bind, Except.bind]

def Pass.drawn (pass : Pass) : Pass :=
  { pass with next := pass.next + 1 }

def Pass.counted (kind : StatementKind) (pass : Pass) : Pass :=
  { pass with seen := kind :: pass.seen }

theorem run_drawNumber : drawNumber.run pass = .ok result ↔ (pass.next, pass.drawn) = result := by
  simp [drawNumber, Pass.drawn, modifyGet, MonadStateOf.modifyGet, StateT.modifyGet, StateT.run, pure,
    Except.pure]

theorem run_count : (count kind).run pass = .ok result ↔ ((), pass.counted kind) = result := by
  rw [count, StateT.run_modify]
  simp [Pass.counted, pure, Except.pure]

theorem classified_ok :
    (classified code).run pass = .ok result ↔
      ∃ construct, Construct.classify code = .ok construct ∧ (construct, pass) = result := by
  unfold classified
  cases Construct.classify code with
  | error fault =>
    refine ⟨fun h => absurd h run_throw_ok, ?_⟩
    rintro ⟨_, ⟨⟩, -⟩
  | ok construct => simp only [run_pure_ok, Except.ok.injEq, exists_eq_left']

/-! ## Guards -/

/-- The guards of a statement: one if a limit asks for it and the body has none, else none. -/
inductive Guards (st : Statement) (level : Nat) : Pass → List Piece → Pass → Prop where
  | needless {pass : Pass} (h : st.directives.limit = none ∨ st.guarded = true) : Guards st level pass [] pass
  | placed {pass : Pass} {limit : Int} (h : st.directives.limit = some limit) (open_ : st.guarded = false) :
    Guards st level pass [st.inject level (.limitGuard pass.next limit)] pass.drawn

theorem limitGuard_ok (h : (limitGuard st level).run pass = .ok (guards, pass')) :
    Guards st level pass guards pass' := by
  unfold limitGuard at h
  split at h
  · next none =>
    rw [run_pure_ok] at h
    cases h
    exact .needless (.inl none)
  · next limit some =>
    split at h
    · next guarded =>
      rw [run_pure_ok] at h
      cases h
      exact .needless (.inr guarded)
    · next unguarded =>
      simp only [run_bind_ok, run_drawNumber, run_pure_ok] at h
      obtain ⟨site, between, drawn, rest⟩ := h
      cases drawn
      cases rest
      exact .placed some (by simpa using unguarded)

theorem guarded_ok {make : List Piece → Step}
    (h : (do return make (← limitGuard st level)).run pass = .ok (step, pass')) :
    ∃ guards, Guards st level pass guards pass' ∧ make guards = step := by
  simp only [run_bind_ok, run_pure_ok] at h
  obtain ⟨guards, behind, guarded, h⟩ := h
  cases h
  exact ⟨guards, limitGuard_ok guarded, rfl⟩

theorem Guards.mem (h : Guards st level pass guards pass') (mem : piece ∈ guards) :
    ∃ site limit, piece = st.inject level (.limitGuard site limit) := by
  cases h with
  | needless _ => cases mem
  | placed _ _ =>
    rw [List.mem_singleton] at mem
    exact ⟨_, _, mem⟩

/-! ## Headers -/

inductive BranchKeys (script : Script) (st : Statement) : Construct → List Int → Prop where
  | loop {head iterable : Text} : BranchKeys script st (.forHeader head iterable) [st.first]
  | definition {name : Text} {params : List Text} : BranchKeys script st (.defHeader name params) []
  | repetition : BranchKeys script st (.blockHeader "while") [st.first]
  | choice {siblings : List Int}
    (h : siblingBranches script.indent st.level (statementHeads script.lines (st.last + 1) st.after) = .ok siblings) :
    BranchKeys script st (.blockHeader "if") (st.first :: siblings)
  | other {keyword : Text} (h : keyword ≠ "while") (h' : keyword ≠ "if") :
    BranchKeys script st (.blockHeader keyword) []

theorem branchMarks_ok {marks : List Piece} (opens : construct.opensBlock)
    (h : (branchMarks script st construct).run pass = .ok (marks, pass')) :
    pass' = pass ∧ ∃ keys, BranchKeys script st construct keys ∧
      marks = keys.map fun key => st.inject st.level (.mark key) := by
  cases construct with
  | forHeader head iterable =>
    simp only [branchMarks, run_pure_ok] at h
    cases h
    exact ⟨rfl, _, .loop, rfl⟩
  | defHeader name params =>
    simp only [branchMarks, run_pure_ok] at h
    cases h
    exact ⟨rfl, _, .definition, rfl⟩
  | blockHeader keyword =>
    simp only [branchMarks] at h
    split at h
    · next isWhile =>
      rw [run_pure_ok] at h
      cases h
      subst isWhile
      exact ⟨rfl, _, .repetition, rfl⟩
    · next notWhile =>
      split at h
      · next isIf =>
        split at h
        · next siblings found =>
          rw [run_pure_ok] at h
          cases h
          subst isIf
          exact ⟨rfl, _, .choice found, rfl⟩
        · exact absurd h run_throw_ok
      · next notIf =>
        rw [run_pure_ok] at h
        cases h
        exact ⟨rfl, _, .other notWhile notIf, rfl⟩
  | _ => cases opens

inductive Heads (script : Script) (st : Statement) : Construct → Pass → HeaderParts → Pass → Prop where
  | loop {head iterable : Text} {keys : List Int} {pass pass' : Pass} {guards : List Piece}
    (marked : BranchKeys script st (.forHeader head iterable) keys)
    (guarded : Guards st (st.level + 1) pass.drawn guards pass') :
    Heads script st (.forHeader head iterable) pass
      ⟨keys.map (fun key => st.inject st.level (.mark key)) ++
          [st.bind ⟨.iterated, pass.next⟩ iterable,
            st.inject st.level (.probe (some (Temp.name ⟨.iterated, pass.next⟩)))],
        [.loopHead st.indentation head ⟨.iterated, pass.next⟩ st.first],
        [st.inject (st.level + 1) .enter] ++ guards ++ st.interior (st.level + 1)⟩ pass'
  | definition {name : Text} {params : List Text} {keys : List Int} {pass pass' : Pass} {guards : List Piece}
    (marked : BranchKeys script st (.defHeader name params) keys)
    (guarded : Guards st (st.level + 1) pass guards pass') :
    Heads script st (.defHeader name params) pass
      ⟨keys.map fun key => st.inject st.level (.mark key), [st.heading],
        (params.map fun name => st.inject (st.level + 1) (.parameter name)) ++ guards ++
          st.interior (st.level + 1)⟩ pass'
  | block {keyword : Text} {keys : List Int} {pass pass' : Pass} {guards : List Piece}
    (marked : BranchKeys script st (.blockHeader keyword) keys)
    (guarded : Guards st (st.level + 1) pass guards pass') :
    Heads script st (.blockHeader keyword) pass
      ⟨keys.map (fun key => st.inject st.level (.mark key)) ++
          (if Construct.isProbed keyword then [st.inject st.level (.probe none)] else []), [st.heading],
        (if Construct.isBranch keyword then [st.inject (st.level + 1) .enter] else []) ++ guards ++
          st.interior (st.level + 1)⟩ pass'

theorem headerParts_ok (opens : construct.opensBlock)
    (h : (headerParts script st construct).run pass = .ok (parts, pass')) :
    Heads script st construct pass parts pass' := by
  unfold headerParts at h
  rw [run_bind_ok] at h
  obtain ⟨marks, between, marked, h⟩ := h
  obtain ⟨rfl, keys, keyed, rfl⟩ := branchMarks_ok opens marked
  cases construct with
  | forHeader head iterable =>
    simp only [run_bind_ok, run_drawNumber, run_pure_ok] at h
    obtain ⟨number, drawn, draw, shaped, behind, shape, guards, last, guarded, result⟩ := h
    cases draw
    cases shape
    cases result
    exact .loop keyed (limitGuard_ok guarded)
  | defHeader name params =>
    simp only [run_bind_ok, run_pure_ok] at h
    obtain ⟨shaped, behind, shape, guards, last, guarded, result⟩ := h
    cases shape
    cases result
    exact .definition keyed (limitGuard_ok guarded)
  | blockHeader keyword =>
    simp only [run_bind_ok, run_pure_ok] at h
    obtain ⟨shaped, behind, shape, guards, last, guarded, result⟩ := h
    cases shape
    cases result
    exact .block keyed (limitGuard_ok guarded)
  | _ => cases opens

def inlineConstruct (code : Text) (construct : Construct) : Construct :=
  if construct.opensBlock then construct else .blockHeader (Construct.firstWord code)

theorem inlineConstruct_cases (code : Text) (construct : Construct) :
    inlineConstruct code construct = construct ∨
      inlineConstruct code construct = .blockHeader (Construct.firstWord code) := by
  unfold inlineConstruct
  split
  · exact .inl rfl
  · exact .inr rfl

theorem opensBlock_inlineConstruct (code : Text) (construct : Construct) :
    (inlineConstruct code construct).opensBlock := by
  unfold inlineConstruct
  split
  · assumption
  · rfl

theorem inlineHeader_ok :
    (inlineHeader code).run pass = .ok result ↔
      ∃ construct, Construct.classify code = .ok construct ∧ (inlineConstruct code construct, pass) = result := by
  unfold inlineHeader
  simp only [run_bind_ok, classified_ok, run_pure_ok]
  constructor
  · rintro ⟨_, _, ⟨construct, found, same⟩, result⟩
    cases same
    exact ⟨_, found, result⟩
  · rintro ⟨construct, found, result⟩
    exact ⟨construct, pass, ⟨construct, found, rfl⟩, result⟩

/-! ## Statements -/

def assignedValue (st : Statement) (valueStart : Nat) : Text :=
  match st.mock with
  | none => st.body.drop valueStart
  | some mock => " (" ++ mock ++ ")"

def plainBody (st : Statement) : Text :=
  match st.mock with
  | none => st.body
  | some mock =>
    if statementKeywords.contains (Construct.firstWord st.body) then st.body else "(" ++ mock ++ ")"

def splicedBody (st : Statement) (openParen closeParen : Nat) : Text :=
  st.body.take (openParen + 1) ++
    splicedArguments st.first (Text.slice st.body (openParen + 1) closeParen) ++ st.body.drop closeParen

inductive Dispatched (script : Script) : Statement → Pass → Step → Pass → Prop where
  | augmented {st : Statement} {pass pass' : Pass} {target operator : Text} {valueStart : Nat} {guards : List Piece}
    (construct : Construct.classify st.body = .ok (.augmented target operator valueStart))
    (guarded : Guards st st.level (pass.counted .augmented).drawn guards pass') :
    Dispatched script st pass
      ⟨guards ++ [st.bind ⟨.augmented, pass.next⟩
            ("(" ++ st.mock.getD (Text.trim (st.body.drop valueStart)) ++ ")"),
          st.inject st.level
            (.probe (some (target ++ " " ++ operator ++ " " ++ Temp.name ⟨.augmented, pass.next⟩))),
          st.inject st.level (.update target operator ⟨.augmented, pass.next⟩)] ++ st.interior st.level,
        st.level, []⟩ pass'
  | assigned {st : Statement} {pass pass' : Pass} {kind : Construct} {target : Text} {valueStart : Nat}
    {guards : List Piece} (construct : Construct.classify st.body = .ok kind)
    (assigns : kind = .assignment target valueStart ∨ kind = .annotated target valueStart)
    (guarded : Guards st st.level (pass.counted (kindOf kind)) guards pass') :
    Dispatched script st pass
      ⟨guards ++ [st.own (st.body.take valueStart ++ assignedValue st valueStart),
          st.inject st.level (.probe (some target))] ++ st.interior st.level, st.level, []⟩ pass'
  | printed {st : Statement} {pass pass' : Pass} {openParen closeParen : Nat} {guards : List Piece}
    (construct : Construct.classify st.body = .ok (.printCall openParen closeParen))
    (guarded : Guards st st.level (pass.counted .printCall) guards pass') :
    Dispatched script st pass
      ⟨guards ++ [st.own (splicedBody st openParen closeParen)] ++ st.interior st.level, st.level, []⟩ pass'
  | returned {st : Statement} {pass pass' : Pass} {value : Text} {guards : List Piece}
    (construct : Construct.classify st.body = .ok (.returning value)) (given : st.mock.getD value ≠ [])
    (guarded : Guards st st.level (pass.counted .returning) guards pass') :
    Dispatched script st pass
      ⟨guards ++ st.interior st.level ++ [st.bind ⟨.returned, pass'.next⟩ ("(" ++ st.mock.getD value ++ ")"),
          st.inject st.level (.probe (some (Temp.name ⟨.returned, pass'.next⟩))),
          st.inject st.level (.giveBack (some ⟨.returned, pass'.next⟩))],
        nextLevel script.indent st.after st.level, []⟩ pass'.drawn
  | ended {st : Statement} {pass pass' : Pass} {value : Text} {guards : List Piece}
    (construct : Construct.classify st.body = .ok (.returning value)) (empty : st.mock.getD value = [])
    (guarded : Guards st st.level (pass.counted .returning) guards pass') :
    Dispatched script st pass
      ⟨guards ++ st.interior st.level ++ [st.inject st.level (.probe none),
          st.inject st.level (.giveBack none)], nextLevel script.indent st.after st.level, []⟩ pass'
  | opened {st : Statement} {pass pass' : Pass} {kind : Construct} {parts : HeaderParts}
    (construct : Construct.classify st.body = .ok kind) (opens : kind.opensBlock = true)
    (heads : Heads script st kind (pass.counted (kindOf kind)) parts pass')
    (body : hasBody script.indent st.after st.level = true) :
    Dispatched script st pass ⟨parts.before ++ parts.header, st.level + 1, parts.prologue⟩ pass'
  | openedEmpty {st : Statement} {pass pass' : Pass} {kind : Construct} {parts : HeaderParts}
    (construct : Construct.classify st.body = .ok kind) (opens : kind.opensBlock = true)
    (heads : Heads script st kind (pass.counted (kindOf kind)) parts pass')
    (empty : hasBody script.indent st.after st.level = false) :
    Dispatched script st pass
      ⟨parts.before ++ parts.header ++ orPass st (st.level + 1) parts.prologue, st.level + 1, []⟩ pass'
  | inline {st : Statement} {pass between pass' : Pass} {colon : Nat} {kind : Construct} {parts : HeaderParts}
    {inner : Step} (construct : Construct.classify st.body = .ok (.inlineCompound colon))
    (header : Construct.classify (st.inlineHead colon).body = .ok kind)
    (heads : Heads script (st.inlineHead colon) (inlineConstruct (st.inlineHead colon).body kind)
      (pass.counted .inlineCompound) parts between)
    (body : Dispatched script (st.inlineBody script.indent colon) between inner pass') :
    Dispatched script st pass
      ⟨parts.before ++ parts.header ++ parts.prologue ++ inner.pieces ++ inner.prologue, st.level, []⟩ pass'
  | ignored {st : Statement} {pass pass' : Pass} {keyword : Text} {guards : List Piece}
    (construct : Construct.classify st.body = .ok (.ignorable keyword))
    (guarded : Guards st st.level (pass.counted .ignorable) guards pass') :
    Dispatched script st pass
      ⟨guards ++ st.interior st.level ++ [st.own st.body], nextLevel script.indent st.after st.level, []⟩ pass'
  | plain {st : Statement} {pass pass' : Pass} {kind : Construct} {guards : List Piece}
    (construct : Construct.classify st.body = .ok kind) (simple : kind = .decorator ∨ kind = .plain)
    (guarded : Guards st st.level (pass.counted (kindOf kind)) guards pass') :
    Dispatched script st pass
      ⟨guards ++ [st.own (plainBody st), st.inject st.level (.probe none)] ++ st.interior st.level,
        st.level, []⟩ pass'

theorem Dispatched.classified (h : Dispatched script st pass step pass') :
    ∃ kind, Construct.classify st.body = .ok kind := by
  cases h <;> exact ⟨_, by assumption⟩

theorem headerStep_ok (construct : Construct.classify st.body = .ok kind) (opens : kind.opensBlock)
    (h : (headerStep script st kind).run (pass.counted (kindOf kind)) = .ok (step, pass')) :
    Dispatched script st pass step pass' := by
  unfold headerStep at h
  rw [run_bind_ok] at h
  obtain ⟨parts, between, heads, h⟩ := h
  have heads := headerParts_ok opens heads
  split at h
  · next body =>
    rw [run_pure_ok] at h
    cases h
    exact .opened construct opens heads body
  · next empty =>
    rw [run_pure_ok] at h
    cases h
    exact .openedEmpty construct opens heads (by simpa using empty)

theorem returnStep_ok (construct : Construct.classify st.body = .ok (.returning value))
    (h : (returnStep script.indent st value).run (pass.counted .returning) = .ok (step, pass')) :
    Dispatched script st pass step pass' := by
  unfold returnStep at h
  rw [run_bind_ok] at h
  obtain ⟨guards, between, guarded, h⟩ := h
  have guarded := limitGuard_ok guarded
  dsimp only at h
  split at h
  · next empty =>
    rw [run_pure_ok] at h
    cases h
    exact .ended construct empty guarded
  · next given =>
    simp only [run_bind_ok, run_drawNumber, run_pure_ok] at h
    obtain ⟨number, drawn, draw, h⟩ := h
    cases draw
    cases h
    exact .returned construct given guarded

def constructStep (script : Script) (st : Statement) : Construct → Emit Step
  | .augmented target operator valueStart => augmentedStep st target operator valueStart
  | .assignment target valueStart | .annotated target valueStart => assignmentStep st target valueStart
  | .printCall openParen closeParen => printStep st openParen closeParen
  | .returning value => returnStep script.indent st value
  | .inlineCompound colon => do
    let head := st.inlineHead colon
    let parts ← headerParts script head (← inlineHeader head.body)
    let inner ← dispatch script (st.inlineBody script.indent colon)
    return ⟨parts.before ++ parts.header ++ parts.prologue ++ inner.pieces ++ inner.prologue, st.level, []⟩
  | .ignorable _ => ignorableStep script.indent st
  | .decorator | .plain => plainStep st
  | header => headerStep script st header

theorem dispatch_of_classify (construct : Construct.classify st.body = .ok kind) :
    dispatch script st = (do count (kindOf kind); constructStep script st kind) := by
  rw [dispatch]
  split
  · next fault refused =>
    rw [construct] at refused
    cases refused
  · next found classified =>
    rw [construct] at classified
    cases classified
    cases kind <;> rfl

theorem dispatch_ok {script : Script} {st : Statement} {pass pass' : Pass} {step : Step}
    (h : (dispatch script st).run pass = .ok (step, pass')) : Dispatched script st pass step pass' := by
  unfold dispatch at h
  split at h
  · exact absurd h run_throw_ok
  · next construct classified =>
    simp only [run_bind_ok, run_count] at h
    obtain ⟨_, between, counted, h⟩ := h
    cases counted
    split at h
    · next target operator valueStart =>
      obtain ⟨number, drawn, draw, h⟩ := run_bind_ok.1 h
      cases run_drawNumber.1 draw
      obtain ⟨guards, guarded, rfl⟩ := guarded_ok h
      exact .augmented classified guarded
    · next target valueStart =>
      obtain ⟨guards, guarded, rfl⟩ := guarded_ok h
      exact .assigned classified (.inl rfl) guarded
    · next target valueStart =>
      obtain ⟨guards, guarded, rfl⟩ := guarded_ok h
      exact .assigned classified (.inr rfl) guarded
    · next openParen closeParen =>
      obtain ⟨guards, guarded, rfl⟩ := guarded_ok h
      exact .printed classified guarded
    · next value => exact returnStep_ok classified h
    · next head iterable => exact headerStep_ok classified rfl h
    · next name params => exact headerStep_ok classified rfl h
    · next keyword => exact headerStep_ok classified rfl h
    · next colon =>
      simp only [run_bind_ok, inlineHeader_ok, run_pure_ok] at h
      obtain ⟨_, _, ⟨kind, header, same⟩, parts, between, heads, inner, last, body, h⟩ := h
      cases same
      cases h
      exact .inline classified header (headerParts_ok (opensBlock_inlineConstruct _ _) heads) (dispatch_ok body)
    · next keyword =>
      obtain ⟨guards, guarded, rfl⟩ := guarded_ok h
      exact .ignored classified guarded
    · obtain ⟨guards, guarded, rfl⟩ := guarded_ok h
      exact .plain classified (.inl rfl) guarded
    · obtain ⟨guards, guarded, rfl⟩ := guarded_ok h
      exact .plain classified (.inr rfl) guarded
termination_by st.body.length
decreasing_by exact length_inlineBody_lt classified

end LineProbe.Instrument
