import LineProbe.Instrument.Range
import LineProbe.Proofs.Assembly
import LineProbe.Proofs.Step

/-!
# Working through a range of lines

The driver of `Instrument/Range` as a relation with one rule per kind of line it meets: a hoisted line, a blank line,
a statement, a mocked function with or without a body, and the end of the range.
-/

namespace LineProbe.Instrument

variable {pass : Pass}

/-! ## Statements -/

def Statement.replaced (script : Script) (st : Statement) (site : Nat) : Statement :=
  { st with
    body := (substituteBlocking st.body st.first st.directives script.callLimit site).1
    mock := none
    guarded := true }

def Pass.skipped (pass : Pass) (count : Nat) : Pass :=
  { pass with next := pass.next + count }

inductive Stepped (script : Script) (source : LogicalStatement) (st : Statement) :
    Pass → Step → Pass → Prop where
  | decorator {pass : Pass} (construct : Construct.classify st.body = .ok .decorator) :
    Stepped script source st pass ⟨[.code source.text st.first st.last], st.level, []⟩
      (pass.counted .decorator)
  | kept {pass pass' : Pass} {kind : Construct} {step : Step}
    (construct : Construct.classify st.body = .ok kind) (other : kind ≠ .decorator)
    (free : hasBlockingCall st.body = false) (dispatched : Dispatched script st pass step pass') :
    Stepped script source st pass step pass'
  | replaced {pass pass' : Pass} {kind : Construct} {step : Step}
    (construct : Construct.classify st.body = .ok kind) (other : kind ≠ .decorator)
    (blocking : hasBlockingCall st.body = true)
    (dispatched : Dispatched script (st.replaced script pass.next)
      (pass.skipped (blockingSpans st.body).length) step pass') :
    Stepped script source st pass step pass'

theorem run_statementStep (construct : Construct.classify st.body = .ok kind) (other : kind ≠ .decorator) (pass : Pass)
    :
    (statementStep script source st).run pass =
      if hasBlockingCall st.body then
        (dispatch script (st.replaced script pass.next)).run (pass.skipped (blockingSpans st.body).length)
      else (dispatch script st).run pass := by
  have dispatched : (statementStep script source st).run pass =
      (if (blockingSpans st.body).length = 0 then dispatch script st
        else dispatch script (st.replaced script pass.next)).run (pass.skipped (blockingSpans st.body).length) := by
    rw [statementStep, classified, construct]
    dsimp only
    rw [pure_bind]
    cases kind <;> first | exact absurd rfl other | rfl
  rw [dispatched]
  cases spans : blockingSpans st.body with
  | nil =>
    rw [if_pos List.length_nil, if_neg (by simp [hasBlockingCall, spans])]
    rfl
  | cons span rest => rw [if_neg (by simp), if_pos (by simp [hasBlockingCall, spans])]

theorem statementStep_ok (h : (statementStep script source st).run pass = .ok (step, pass')) :
    Stepped script source st pass step pass' := by
  have classified : ∃ kind, Construct.classify st.body = .ok kind := by
    unfold statementStep at h
    simp only [run_bind_ok, classified_ok] at h
    obtain ⟨kind, _, ⟨_, construct, -⟩, -⟩ := h
    exact ⟨_, construct⟩
  obtain ⟨kind, construct⟩ := classified
  by_cases other : kind = .decorator
  · subst other
    rw [statementStep, Instrument.classified, construct] at h
    simp only [pure_bind, run_bind_ok, run_count, run_pure_ok] at h
    obtain ⟨_, counted, count, h⟩ := h
    cases count
    cases h
    exact .decorator construct
  · rw [run_statementStep construct other] at h
    split at h
    · next blocking => exact .replaced construct other blocking (dispatch_ok h)
    · next free => exact .kept construct other (by simpa using free) (dispatch_ok h)

/-! ## Mocked functions -/

structure MocksDef (st : Statement) (mocked : MockedDef) : Prop where
  construct : Construct.classify st.body = .ok (.defHeader mocked.name mocked.params)
  mock : st.mock = some mocked.arguments
  sync : Construct.firstWord st.body ≠ "async"

theorem mockedDef?_ok (h : (mockedDef? st).run pass = .ok (found, pass')) :
    pass' = pass ∧ (∀ mocked, found = some mocked → MocksDef st mocked) ∧
      (found = none → ∀ mocked, ¬ MocksDef st mocked) := by
  unfold mockedDef? at h
  simp only [run_bind_ok, classified_ok] at h
  obtain ⟨kind, between, ⟨_, construct, same⟩, h⟩ := h
  cases same
  split at h
  · next name params arguments mock =>
    rw [run_pure_ok] at h
    cases h
    refine ⟨rfl, ?_, ?_⟩
    · intro mocked found
      split at found
      · cases found
      · next sync =>
        cases found
        exact ⟨construct, mock, sync⟩
    · intro found mocked mocks
      split at found
      · next async => exact mocks.sync async
      · cases found
  · next other =>
    rw [run_pure_ok] at h
    cases h
    refine ⟨rfl, fun _ found => (nomatch found), ?_⟩
    intro _ mocked mocks
    have same := mocks.construct
    rw [construct, Except.ok.injEq] at same
    exact other _ _ _ same mocks.mock

theorem mockedDef?_of_unmocked (h : ∀ mocked, ¬ MocksDef st mocked) :
    mockedDef? st = (do let _ ← classified st.body; return none) := by
  unfold mockedDef? classified
  cases construct : Construct.classify st.body with
  | error fault => rfl
  | ok kind =>
    dsimp only
    rw [pure_bind, pure_bind]
    split
    · next name params arguments mock =>
      split
      · rfl
      · next sync => exact absurd ⟨construct, mock, sync⟩ (h ⟨name, params, arguments⟩)
    · rfl

def writtenBody (config : IndentConfig) (st : Statement) (block : List Text) : List Piece :=
  if hasBody config block st.level then
    block.zipIdx.map fun (line, offset) =>
      .code line (st.last + 1 + (offset : Int)) (st.last + 1 + (offset : Int))
  else [st.inject (st.level + 1) .pass]

theorem plainDef_ok (h : (plainDef config source st block).run pass = .ok (pieces, pass')) :
    ∃ guards, Guards st (st.level + 1) pass guards pass' ∧
      pieces = .header source.text st.first st.last :: guards ++ writtenBody config st block := by
  unfold plainDef at h
  simp only [run_bind_ok, run_pure_ok] at h
  obtain ⟨guards, between, guarded, h⟩ := h
  cases h
  exact ⟨guards, limitGuard_ok guarded, rfl⟩

def lengthBefore (index : Int) (lines : List Text) : Option Int → Nat
  | none => lines.length
  | some stop => (stop - index).toNat

theorem blockLength_ok (h : (blockLength script level index lines).run pass = .ok (length, pass')) :
    pass' = pass ∧ ∃ stop, blockEnd? script.indent level (statementHeads script.lines index lines) = .ok stop ∧
      length = lengthBefore index lines stop := by
  unfold blockLength at h
  split at h
  · next found =>
    rw [run_pure_ok] at h
    cases h
    exact ⟨rfl, none, found, rfl⟩
  · next stop found =>
    rw [run_pure_ok] at h
    cases h
    exact ⟨rfl, some stop, found, rfl⟩
  · exact absurd h run_throw_ok

def mockedPrologue (st : Statement) (mocked : MockedDef) : List Piece :=
  mocked.params.map (fun name => st.inject (st.level + 1) (.parameter name)) ++ st.interior (st.level + 1)

def mockedPieces (config : IndentConfig) (source : LogicalStatement) (st : Statement) (block : List Text)
    (mocked : MockedDef) (shadow : Temp) (guards body : List Piece) : List Piece :=
  (.header source.text st.first st.last :: guards ++ writtenBody config st block) ++
    .header (renameDef mocked.name shadow.name none source.text) st.first st.last :: body ++
      [st.inject st.level (.callMock shadow mocked.arguments)]

/-! ## Ranges -/

abbrev behind (source : LogicalStatement) (rest : List Text) : List Text :=
  rest.drop source.extent

theorem forall_mem_placePrologue {property : Piece → Prop} (documents : Bool)
    (before : ∀ piece ∈ pending, property piece) (after : ∀ piece ∈ pieces, property piece) :
    ∀ piece ∈ placePrologue documents pending pieces, property piece := by
  unfold placePrologue
  split
  · exact List.forall_mem_append.2 ⟨after, before⟩
  · exact List.forall_mem_append.2 ⟨before, after⟩

inductive Runs (script : Script) : (floor level : Nat) → (pending : List Piece) → (cursor : Int) →
    List Text → Pass → List Piece → Pass → Prop where
  | done {floor level : Nat} {pending : List Piece} {cursor : Int} {pass : Pass} :
    Runs script floor level pending cursor [] pass pending pass
  | hoisted {floor level : Nat} {pending later : List Piece} {cursor : Int} {line : Text} {rest : List Text}
    {pass pass' : Pass} (hoisted : script.hoisted.contains cursor = true)
    (run : Runs script floor level [] (cursor + 1) rest pass later pass') :
    Runs script floor level pending cursor (line :: rest) pass (pending ++ later) pass'
  | blank {floor level : Nat} {pending later : List Piece} {cursor : Int} {line : Text} {rest : List Text}
    {pass pass' : Pass} (kept : script.hoisted.contains cursor = false) (blank : isBlankLine line = true)
    (run : Runs script floor level [] (cursor + 1) rest pass later pass') :
    Runs script floor level pending cursor (line :: rest) pass
      (pending ++ blankPieces script cursor floor level rest ++ later) pass'
  | statement {floor level : Nat} {pending later : List Piece} {cursor : Int} {line : Text} {rest : List Text}
    {source : LogicalStatement} {step : Step} {pass between pass' : Pass}
    (kept : script.hoisted.contains cursor = false) (visible : isBlankLine line = false)
    (found : statementIn script.lines cursor line rest = .ok source)
    (unmocked : ∀ mocked, ¬ MocksDef (statementOf script source line (behind source rest)) mocked)
    (stepped : Stepped script source (statementOf script source line (behind source rest)) pass step between)
    (run : Runs script floor step.nextLevel step.prologue (source.last + 1) (behind source rest) between later pass') :
    Runs script floor level pending cursor (line :: rest) pass
      (placePrologue (Construct.isDocstring line) pending step.pieces ++ later) pass'
  | mocked {floor level : Nat} {pending guards body later : List Piece} {cursor : Int} {line : Text}
    {rest : List Text} {source : LogicalStatement} {st : Statement} {mock : MockedDef} {stop : Option Int}
    {block : List Text} {pass guarded_ inside pass' : Pass}
    (kept : script.hoisted.contains cursor = false) (visible : isBlankLine line = false)
    (found : statementIn script.lines cursor line rest = .ok source)
    (same : st = statementOf script source line (behind source rest)) (mocks : MocksDef st mock)
    (stops : blockEnd? script.indent st.level
      (statementHeads script.lines (source.last + 1) (behind source rest)) = .ok stop)
    (cut : block = (behind source rest).take (lengthBefore (source.last + 1) (behind source rest) stop))
    (guarded : Guards st (st.level + 1) (pass.counted .mockedDef) guards guarded_)
    (filled : hasBody script.indent block st.level = true)
    (inner : Runs script (st.level + 1) (st.level + 1) (mockedPrologue st mock) (source.last + 1) block
      guarded_.drawn body inside)
    (run : Runs script floor st.level []
      (source.last + 1 + lengthBefore (source.last + 1) (behind source rest) stop)
      ((behind source rest).drop (lengthBefore (source.last + 1) (behind source rest) stop)) inside later pass') :
    Runs script floor level pending cursor (line :: rest) pass
      (placePrologue (Construct.isDocstring line) pending
        (mockedPieces script.indent source st block mock ⟨.mocked, guarded_.next⟩ guards body) ++ later) pass'
  | mockedEmpty {floor level : Nat} {pending guards later : List Piece} {cursor : Int} {line : Text}
    {rest : List Text} {source : LogicalStatement} {st : Statement} {mock : MockedDef} {stop : Option Int}
    {block : List Text} {pass guarded_ pass' : Pass}
    (kept : script.hoisted.contains cursor = false) (visible : isBlankLine line = false)
    (found : statementIn script.lines cursor line rest = .ok source)
    (same : st = statementOf script source line (behind source rest)) (mocks : MocksDef st mock)
    (stops : blockEnd? script.indent st.level
      (statementHeads script.lines (source.last + 1) (behind source rest)) = .ok stop)
    (cut : block = (behind source rest).take (lengthBefore (source.last + 1) (behind source rest) stop))
    (guarded : Guards st (st.level + 1) (pass.counted .mockedDef) guards guarded_)
    (empty : hasBody script.indent block st.level = false)
    (run : Runs script floor st.level []
      (source.last + 1 + lengthBefore (source.last + 1) (behind source rest) stop)
      ((behind source rest).drop (lengthBefore (source.last + 1) (behind source rest) stop)) guarded_.drawn later pass') :
    Runs script floor level pending cursor (line :: rest) pass
      (placePrologue (Construct.isDocstring line) pending
        (mockedPieces script.indent source st block mock ⟨.mocked, guarded_.next⟩ guards
          (orPass st (st.level + 1) (mockedPrologue st mock))) ++ later) pass'

theorem nextStatement_ok (h : (nextStatement script cursor line rest).run pass = .ok (source, pass')) :
    pass' = pass ∧ statementIn script.lines cursor line rest = .ok source := by
  unfold nextStatement at h
  split at h
  · next found =>
    rw [run_pure_ok] at h
    cases h
    exact ⟨rfl, found⟩
  · exact absurd h run_throw_ok

theorem range_ok (h : (range script floor level pending cursor lines).run pass = .ok (pieces, pass')) :
    Runs script floor level pending cursor lines pass pieces pass' := by
  induction size : lines.length using Nat.strongRecOn
    generalizing floor level pending cursor lines pass pieces pass' with
  | ind size_ ih =>
    subst size
    cases lines with
    | nil =>
      rw [range, run_pure_ok] at h
      cases h
      exact .done
    | cons line rest =>
      have shorter (count : Nat) : (rest.drop count).length < (line :: rest).length := by
        simp only [List.length_cons, List.length_drop]
        omega
      rw [range] at h
      split at h
      · next hoisted =>
        simp only [run_bind_ok, run_pure_ok] at h
        obtain ⟨later, between, run, h⟩ := h
        cases h
        exact .hoisted hoisted (ih _ (shorter 0) run rfl)
      · next unhoisted =>
        have kept : script.hoisted.contains cursor = false := by simpa using unhoisted
        split at h
        · next blank =>
          simp only [run_bind_ok, run_pure_ok] at h
          obtain ⟨later, between, run, h⟩ := h
          cases h
          exact .blank kept blank (ih _ (shorter 0) run rfl)
        · next notBlank =>
          have visible : isBlankLine line = false := by simpa using notBlank
          rw [run_bind_ok] at h
          obtain ⟨source, reached, assembled, h⟩ := h
          obtain ⟨rfl, found⟩ := nextStatement_ok assembled
          dsimp only at h
          rw [run_bind_ok] at h
          obtain ⟨mock?, reached, mocked, h⟩ := h
          obtain ⟨rfl, mocks, unmocked⟩ := mockedDef?_ok mocked
          cases mock? with
          | none =>
            simp only [run_bind_ok, run_pure_ok] at h
            obtain ⟨step, between, stepped, later, last, run, h⟩ := h
            cases h
            exact .statement kept visible found (unmocked rfl) (statementStep_ok stepped)
              (ih _ (shorter _) run rfl)
          | some mock =>
            simp only [run_bind_ok, run_count] at h
            obtain ⟨_, counted, count, length, bounded, ends, h⟩ := h
            cases count
            obtain ⟨rfl, stop, stops, rfl⟩ := blockLength_ok ends
            obtain ⟨asWritten, guarded_, written, h⟩ := h
            obtain ⟨guards, guarded, rfl⟩ := plainDef_ok written
            obtain ⟨number, drawn, draw, h⟩ := h
            rw [run_drawNumber] at draw
            cases draw
            have within (count : Nat) : ((rest.drop source.extent).take count).length < (line :: rest).length := by
              simp only [List.length_cons, List.length_take, List.length_drop]
              omega
            have past (count : Nat) : ((rest.drop source.extent).drop count).length < (line :: rest).length := by
              simp only [List.length_cons, List.length_drop]
              omega
            split at h
            · next filled =>
              simp only [run_bind_ok, run_pure_ok] at h
              obtain ⟨body, inside, inner, later, last, run, h⟩ := h
              cases h
              exact .mocked kept visible found rfl (mocks _ rfl) stops rfl guarded filled
                (ih _ (within _) inner rfl) (ih _ (past _) run rfl)
            · next unfilled =>
              simp only [run_bind_ok, run_pure_ok] at h
              obtain ⟨body, inside, same, later, last, run, h⟩ := h
              cases same
              cases h
              exact .mockedEmpty kept visible found rfl (mocks _ rfl) stops rfl guarded (by simpa using unfilled)
                (ih _ (past _) run rfl)

/-! ## Scripts without hoisted lines and mocked functions -/

def mocksDef (source : LogicalStatement) : Bool :=
  match Construct.classify source.body with
  | .ok (.defHeader ..) => source.directives.mock.isSome
  | _ => false

theorem body_statementOf (script : Script) (cursor : Int) (rest after : List Text) (visible : isBlankLine line = false) :
    (statementOf script (assemble cursor line rest) line after).body = (assemble cursor line rest).body := by
  have whole := leadingBlanks_append_body_assemble cursor rest visible
  rw [statementOf]
  dsimp only
  conv => lhs; rw [← whole, List.drop_left]

theorem not_mocksDef_of_unmocked (visible : isBlankLine line = false) (h : mocksDef (assemble cursor line rest) = false)
    (mocked : MockedDef) : ¬ MocksDef (statementOf script (assemble cursor line rest) line after) mocked := by
  intro mocks
  have construct := mocks.construct
  rw [body_statementOf script cursor rest after visible] at construct
  have given : (assemble cursor line rest).directives.mock = some mocked.arguments := mocks.mock
  simp [mocksDef, construct, given] at h

inductive Walks (script : Script) : (level : Nat) → (pending : List Piece) → (cursor : Int) → List Text →
    Pass → (sources : List LogicalStatement) → List Piece → Pass → Prop where
  | done {level : Nat} {pending : List Piece} {cursor : Int} {pass : Pass} :
    Walks script level pending cursor [] pass [] pending pass
  | blank {level : Nat} {pending later : List Piece} {cursor : Int} {line : Text} {rest : List Text}
    {sources : List LogicalStatement} {pass pass' : Pass} (blank : isBlankLine line = true)
    (walk : Walks script level [] (cursor + 1) rest pass sources later pass') :
    Walks script level pending cursor (line :: rest) pass sources
      (pending ++ blankPieces script cursor 0 level rest ++ later) pass'
  | statement {level : Nat} {pending later : List Piece} {cursor : Int} {line : Text} {rest : List Text}
    {source : LogicalStatement} {sources : List LogicalStatement} {step : Step} {pass between pass' : Pass}
    (visible : isBlankLine line = false) (found : assemble cursor line rest = source)
    (stepped : Stepped script source (statementOf script source line (behind source rest)) pass step between)
    (walk : Walks script step.nextLevel step.prologue (source.last + 1) (behind source rest) between sources
      later pass') :
    Walks script level pending cursor (line :: rest) pass (source :: sources)
      (placePrologue (Construct.isDocstring line) pending step.pieces ++ later) pass'

theorem Runs.walks (run : Runs script 0 level pending cursor lines pass pieces pass') (unhoisted : script.hoisted = [])
    (here : LinesFrom script.lines cursor lines)
    (unmocked : ∀ source ∈ statementsFrom script.lines cursor lines, mocksDef source = false) :
    Walks script level pending cursor lines pass (statementsFrom script.lines cursor lines) pieces pass' := by
  generalize ground : 0 = floor at run
  induction run with
  | done =>
    rw [statementsFrom_nil]
    exact .done
  | hoisted hoisted => simp [unhoisted] at hoisted
  | blank _ blank _ ih =>
    rw [statementsFrom_blank blank] at unmocked ⊢
    subst ground
    exact .blank blank (ih here.next unmocked rfl)
  | statement _ visible found _ stepped _ ih =>
    obtain rfl := assemble_eq_of_found here.nonneg found
    rw [statementsFrom_visible here visible] at unmocked ⊢
    rw [List.forall_mem_cons] at unmocked
    exact .statement visible rfl stepped (ih here.behind unmocked.2 ground)
  | mocked _ visible found same mocks | mockedEmpty _ visible found same mocks =>
    obtain rfl := assemble_eq_of_found here.nonneg found
    subst same
    rw [statementsFrom_visible here visible, List.forall_mem_cons] at unmocked
    exact absurd mocks (not_mocksDef_of_unmocked visible unmocked.1 _)

theorem wholeScript_walks (h : wholeScript script = .ok (pieces, pass)) (unhoisted : script.hoisted = [])
    (unmocked : ∀ source ∈ logicalStatements script.lines, mocksDef source = false) :
    Walks script 0 [] 0 script.lines .start (logicalStatements script.lines) pieces pass :=
  (range_ok h).walks unhoisted (linesFrom_start _) unmocked

end LineProbe.Instrument
