import LineProbe.Proofs.Origins
import Mathlib.Logic.Relation

/-!
# Instrumenting comes to an end

The driver works through a range turn by turn, calls itself for the body of a mocked function, and dispatches all
other statements.
-/

namespace LineProbe.Instrument

variable {pass : Pass}

/-! ## Calls -/

/-- A call of the driver on lines that begin at `cursor`, or of the dispatcher on a statement. -/
inductive Call where
  | range (floor level : Nat) (pending : List Piece) (cursor : Int) (lines : List Text) (pass : Pass)
  | dispatch (st : Statement) (pass : Pass)

inductive CallKind where
  | later
  | copy
  | statement
  | inline

def Statement.call (script : Script) (st : Statement) (pass : Pass) : Call :=
  if hasBlockingCall st.body then
    .dispatch (st.replaced script pass.next) (pass.skipped (blockingSpans st.body).length)
  else .dispatch st pass

inductive Calls (script : Script) : CallKind → Call → Call → Prop where
  | later {floor level : Nat} {pending : List Piece} {cursor : Int} {line : Text} {rest : List Text}
    {pass pass' : Pass} {now : Turn} (taken : (turn script floor level cursor line rest).run pass = .ok (now, pass')) :
    Calls script .later (.range floor level pending cursor (line :: rest) pass)
      (.range floor now.level now.prologue now.next now.behind pass')
  | copy {floor level : Nat} {pending : List Piece} {cursor : Int} {line : Text} {rest : List Text}
    {pass pass' : Pass} {source : LogicalStatement} {st : Statement} {mocked : MockedDef} {head : MockedHead}
    (kept : script.hoisted.contains cursor = false) (visible : isBlankLine line = false)
    (found : statementIn script.lines cursor line rest = .ok source)
    (same : st = statementOf script source line (behind source rest)) (mocks : MocksDef st mocked)
    (headed : (mockedHead script source st (behind source rest)).run pass = .ok (head, pass'))
    (filled : hasBody script.indent ((behind source rest).take head.length) st.level = true) :
    Calls script .copy (.range floor level pending cursor (line :: rest) pass)
      (.range (st.level + 1) (st.level + 1) (mockedPrologue st mocked) (st.last + 1)
        ((behind source rest).take head.length) pass')
  | statement {floor level : Nat} {pending : List Piece} {cursor : Int} {line : Text} {rest : List Text} {pass : Pass}
    {source : LogicalStatement} {st : Statement} {kind : Construct} (kept : script.hoisted.contains cursor = false)
    (visible : isBlankLine line = false) (found : statementIn script.lines cursor line rest = .ok source)
    (same : st = statementOf script source line (behind source rest)) (unmocked : ∀ mocked, ¬ MocksDef st mocked)
    (construct : Construct.classify st.body = .ok kind) (other : kind ≠ .decorator) :
    Calls script .statement (.range floor level pending cursor (line :: rest) pass) (st.call script pass)
  | inline {st : Statement} {colon : Nat} {kind : Construct} {parts : HeaderParts} {pass pass' : Pass}
    (construct : Construct.classify st.body = .ok (.inlineCompound colon))
    (header : Construct.classify (st.inlineHead colon).body = .ok kind)
    (headed : (headerParts script (st.inlineHead colon) (inlineConstruct (st.inlineHead colon).body kind)).run
      (pass.counted .inlineCompound) = .ok (parts, pass')) :
    Calls script .inline (.dispatch st pass) (.dispatch (st.inlineBody script.indent colon) pass')

/-- What a call works on, against what its caller works on. The driver goes forward and keeps the end of its range, the
body of a mocked function is a smaller range behind the cursor, and that of an inline compound is a shorter text. -/
def CallKind.Shrinks : CallKind → Call → Call → Prop
  | .later, .range _ _ _ cursor lines _, .range _ _ _ next behind _ =>
    cursor < next ∧ next + behind.length = cursor + lines.length
  | .copy, .range _ _ _ cursor lines _, .range _ _ _ first block _ =>
    cursor < first ∧ first + block.length ≤ cursor + lines.length ∧ block.length < lines.length
  | .statement, .range .., .dispatch .. => True
  | .inline, .dispatch st _, .dispatch inner _ => inner.body.length < st.body.length
  | _, _, _ => False

/-- The lines of a call of the driver are those of the script from its cursor on, between `start` and `stop`. -/
def Call.Within (script : Script) (start stop : Int) : Call → Prop
  | .range _ _ _ cursor lines _ => start ≤ cursor ∧ cursor + lines.length ≤ stop ∧ LinesAt script.lines cursor lines
  | .dispatch st _ => 0 ≤ st.last

def Terminates (script : Script) (call : Call) : Prop :=
  Acc (fun callee caller => ∃ kind, Calls script kind caller callee) call

def Reaches (script : Script) : Call → Call → Prop :=
  Relation.ReflTransGen fun caller callee => ∃ kind, Calls script kind caller callee

section Calls

theorem length_mockedHead_le (nonneg : 0 ≤ cursor)
    (found : statementIn script.lines cursor line rest = .ok source)
    (headed : (mockedHead script source (statementOf script source line (behind source rest)) (behind source rest)).run
      pass = .ok (head, pass')) : head.length ≤ (behind source rest).length := by
  obtain ⟨stop, guards, guarded, stops, -, -, rfl⟩ := mockedHead_ok headed
  obtain ⟨-, last, -, -⟩ := occupies_of_found nonneg found
  exact lengthBefore_le (by simp only [statementOf]; omega) stops

theorem Calls.shrinks (h : Calls script kind caller callee) (within : caller.Within script start stop) :
    kind.Shrinks caller callee := by
  cases h with
  | later taken =>
    obtain ⟨count, bound, -, next, behind⟩ := (turn_ok taken).moves within.2.2.nonneg
    refine ⟨by omega, ?_⟩
    rw [next, behind, List.length_drop, List.length_cons]
    omega
  | copy _ _ found same _ headed =>
    subst same
    have nonneg := within.2.2.nonneg
    have bound := length_mockedHead_le nonneg found headed
    obtain ⟨-, last, extent, taken⟩ := occupies_of_found nonneg found
    rw [List.length_drop] at bound
    simp only [CallKind.Shrinks, statementOf, List.length_take, List.length_drop, List.length_cons]
    omega
  | statement =>
    unfold Statement.call
    split <;> trivial
  | inline construct => exact length_inlineBody_lt construct

theorem Calls.within (h : Calls script kind caller callee) (within : caller.Within script start stop) :
    callee.Within script start stop := by
  have shrinks := h.shrinks within
  cases h with
  | later taken =>
    obtain ⟨low, high, here⟩ := within
    obtain ⟨count, bound, -, next, behind⟩ := (turn_ok taken).moves here.nonneg
    refine ⟨by omega, by rw [shrinks.2]; exact high, ?_⟩
    rw [next, behind]
    exact here.drop count
  | copy _ _ found same =>
    subst same
    obtain ⟨low, high, here⟩ := within
    exact ⟨Int.le_trans low (Int.le_of_lt shrinks.1), Int.le_trans shrinks.2.1 high, here.block found _⟩
  | @statement _ _ _ _ _ _ _ source _ _ _ _ found same =>
    subst same
    have nonneg := within.2.2.nonneg
    obtain ⟨-, last, -, -⟩ := occupies_of_found nonneg found
    have behind : 0 ≤ source.last := by omega
    unfold Statement.call
    split <;> exact behind
  | inline => exact within

def Call.size : Call → Nat × Nat
  | .range _ _ _ _ lines _ => (lines.length + 1, 0)
  | .dispatch st _ => (0, st.body.length)

theorem Calls.size_lt (h : Calls script kind caller callee) (within : caller.Within script start stop) :
    Prod.Lex (· < ·) (· < ·) callee.size caller.size := by
  have shrinks := h.shrinks within
  cases h with
  | later =>
    obtain ⟨advances, ends⟩ := shrinks
    exact .left _ _ (by omega)
  | copy => exact .left _ _ (Nat.succ_lt_succ shrinks.2.2)
  | statement =>
    unfold Statement.call
    split <;> exact .left _ _ (Nat.succ_pos _)
  | inline => exact .right _ shrinks

theorem terminates_of_within (within : call.Within script start stop) : Terminates script call := by
  have wf : WellFounded (Prod.Lex (· < ·) (· < ·) : Nat × Nat → Nat × Nat → Prop) :=
    (Prod.lex Nat.lt_wfRel Nat.lt_wfRel).wf
  generalize size : call.size = bound
  induction bound using wf.induction generalizing call with
  | _ bound ih =>
    subst size
    refine .intro _ ?_
    rintro callee ⟨kind, h⟩
    exact ih _ (h.size_lt within) (h.within within) rfl

theorem Reaches.within (h : Reaches script caller callee) (within : caller.Within script start stop) :
    callee.Within script start stop := by
  induction h with
  | refl => exact within
  | tail _ step ih =>
    obtain ⟨kind, step⟩ := step
    exact step.within ih

end Calls

/-! ## Computations that cannot fail -/

def Total {α : Type} (action : Emit α) : Prop :=
  ∀ pass, ∃ value pass', action.run pass = .ok (value, pass')

section Total

namespace Total

theorem not_error {action : Emit α} (h : Total action) : action.run pass ≠ .error error := by
  intro fails
  obtain ⟨value, pass', gives⟩ := h pass
  rw [fails] at gives
  cases gives

theorem pure (value : α) : Total (pure value : Emit α) :=
  fun pass => ⟨value, pass, run_pure_ok.2 rfl⟩

theorem bind {first : Emit α} {next : α → Emit β} (h : Total first) (h' : ∀ value, Total (next value)) :
    Total (first >>= next) := by
  intro pass
  obtain ⟨value, between, found⟩ := h pass
  obtain ⟨result, pass', given⟩ := h' value between
  exact ⟨result, pass', run_bind_ok.2 ⟨value, between, found, given⟩⟩

end Total

theorem run_map_error {action : Emit α} {value : α → β} :
    (action >>= fun found => pure (value found)).run pass = .error error ↔ action.run pass = .error error := by
  rw [run_bind_error, or_iff_left]
  rintro ⟨found, between, -, fails⟩
  exact (Total.pure _).not_error fails

theorem total_drawNumber : Total drawNumber :=
  fun pass => ⟨pass.next, pass.drawn, run_drawNumber.2 rfl⟩

theorem total_count (kind : StatementKind) : Total (count kind) :=
  fun pass => ⟨(), pass.counted kind, run_count.2 rfl⟩

theorem total_limitGuard (st : Statement) (level : Nat) : Total (limitGuard st level) := by
  unfold limitGuard
  split
  · exact .pure _
  · split
    · exact .pure _
    · exact total_drawNumber.bind fun _ => .pure _

theorem total_returnStep (config : IndentConfig) (st : Statement) (value : Text) :
    Total (returnStep config st value) := by
  refine (total_limitGuard _ _).bind fun _ => ?_
  dsimp only
  split
  · exact .pure _
  · exact total_drawNumber.bind fun _ => .pure _

/-! ### Looking ahead -/

section Heads

variable {heads : List (Except StatementError (Int × Text))}
  (readable : ∀ head ∈ heads, ∃ index line, head = .ok (index, line))
include readable

theorem exists_siblingBranches (config : IndentConfig) (level : Nat) :
    ∃ siblings, siblingBranches config level heads = .ok siblings := by
  induction heads with
  | nil => exact ⟨[], rfl⟩
  | cons head heads ih =>
    obtain ⟨index, line, rfl⟩ := readable head List.mem_cons_self
    obtain ⟨siblings, found⟩ := ih fun head mem => readable head (List.mem_cons_of_mem _ mem)
    rw [siblingBranches]
    split
    · exact ⟨siblings, found⟩
    · split
      · exact ⟨index :: siblings, by rw [found]; rfl⟩
      · exact ⟨[], rfl⟩

theorem exists_blockEnd? (config : IndentConfig) (level : Nat) : ∃ stop, blockEnd? config level heads = .ok stop := by
  induction heads with
  | nil => exact ⟨none, rfl⟩
  | cons head heads ih =>
    obtain ⟨index, line, rfl⟩ := readable head List.mem_cons_self
    rw [blockEnd?]
    split
    · exact ⟨some index, rfl⟩
    · exact ih fun head mem => readable head (List.mem_cons_of_mem _ mem)

end Heads

theorem readable_statementHeads (nonneg : 0 ≤ index) (script lines : List Text) :
    ∀ head ∈ statementHeads script index lines, ∃ position line, head = .ok (position, line) := by
  intro head mem
  obtain ⟨position, line, same, -⟩ := statementHeads_within nonneg head mem
  exact ⟨position, line, same⟩

theorem total_branchMarks (nonneg : 0 ≤ st.last) (construct : Construct) : Total (branchMarks script st construct) := by
  obtain ⟨siblings, found⟩ := exists_siblingBranches
    (readable_statementHeads (by omega : 0 ≤ st.last + 1) script.lines st.after) script.indent st.level
  unfold branchMarks
  split
  · exact .pure _
  · split
    · exact .pure _
    · split
      · dsimp only
        rw [found]
        exact .pure _
      · exact .pure _
  · exact .pure _

theorem total_headerParts (nonneg : 0 ≤ st.last) (construct : Construct) : Total (headerParts script st construct) := by
  refine (total_branchMarks nonneg construct).bind fun marks => ?_
  dsimp only
  split
  · exact total_drawNumber.bind fun _ => (Total.pure _).bind fun _ => (total_limitGuard _ _).bind fun _ => .pure _
  · exact (Total.pure _).bind fun _ => (total_limitGuard _ _).bind fun _ => .pure _
  · exact (Total.pure _).bind fun _ => (total_limitGuard _ _).bind fun _ => .pure _
  · exact (Total.pure _).bind fun _ => (total_limitGuard _ _).bind fun _ => .pure _

theorem total_headerStep (nonneg : 0 ≤ st.last) (construct : Construct) : Total (headerStep script st construct) := by
  refine (total_headerParts nonneg construct).bind fun parts => ?_
  dsimp only
  split <;> exact .pure _

theorem total_blockLength (nonneg : 0 ≤ index) (level : Nat) (lines : List Text) :
    Total (blockLength script level index lines) := by
  obtain ⟨stop, found⟩ := exists_blockEnd? (readable_statementHeads nonneg script.lines lines) script.indent level
  unfold blockLength
  rw [found]
  cases stop <;> exact .pure _

theorem total_mockedHead (nonneg : 0 ≤ st.last) (source : LogicalStatement) (after : List Text) :
    Total (mockedHead script source st after) :=
  (total_count _).bind fun _ => (total_blockLength (by omega) _ _).bind fun _ =>
    ((total_limitGuard _ _).bind fun _ => .pure _).bind fun _ => total_drawNumber.bind fun _ => .pure _

/-! ### Statements -/

theorem total_constructStep (nonneg : 0 ≤ st.last) (whole : ∀ colon, kind ≠ .inlineCompound colon) :
    Total (constructStep script st kind) := by
  cases kind with
  | augmented => exact total_drawNumber.bind fun _ => (total_limitGuard _ _).bind fun _ => .pure _
  | assignment | annotated | printCall | ignorable | decorator | plain =>
    exact (total_limitGuard _ _).bind fun _ => .pure _
  | returning => exact total_returnStep _ _ _
  | forHeader | defHeader | blockHeader => exact total_headerStep nonneg _
  | inlineCompound colon => exact absurd rfl (whole colon)

end Total

/-! ## Refused headers -/

def Fails (script : Script) (error : InstrumentError) : Call → Prop
  | .range floor level pending cursor lines pass =>
    (range script floor level pending cursor lines).run pass = .error error
  | .dispatch st pass => (dispatch script st).run pass = .error error

/-- The header that a call looks at is refused: that of the statement with which its range begins, or the statement
that it dispatches, or the header of an inline compound that it dispatches. -/
inductive Refuses (script : Script) (fault : Signature.Fault) : Call → Prop where
  | range {floor level : Nat} {pending : List Piece} {cursor : Int} {line : Text} {rest : List Text} {pass : Pass}
    {source : LogicalStatement} (kept : script.hoisted.contains cursor = false) (visible : isBlankLine line = false)
    (found : statementIn script.lines cursor line rest = .ok source)
    (refused : Construct.classify (statementOf script source line (behind source rest)).body = .error fault) :
    Refuses script fault (.range floor level pending cursor (line :: rest) pass)
  | statement {st : Statement} {pass : Pass} (refused : Construct.classify st.body = .error fault) :
    Refuses script fault (.dispatch st pass)
  | inline {st : Statement} {pass : Pass} {colon : Nat}
    (construct : Construct.classify st.body = .ok (.inlineCompound colon))
    (refused : Construct.classify (st.inlineHead colon).body = .error fault) :
    Refuses script fault (.dispatch st pass)

section Refused

theorem run_classified_error :
    (classified code).run pass = .error error ↔
      ∃ fault, Construct.classify code = .error fault ∧ error = .header fault := by
  unfold classified
  cases Construct.classify code with
  | error fault =>
    have thrown : (throw (.header fault) : Emit Construct).run pass = .error (.header fault) := rfl
    simp only [thrown, Except.error.injEq, exists_eq_left', eq_comm]
  | ok construct =>
    constructor
    · intro h
      exact absurd h (Total.pure _).not_error
    · rintro ⟨_, ⟨⟩, -⟩

theorem run_mockedDef?_error :
    (mockedDef? st).run pass = .error error ↔
      ∃ fault, Construct.classify st.body = .error fault ∧ error = .header fault := by
  unfold mockedDef?
  rw [run_bind_error, run_classified_error, or_iff_left]
  rintro ⟨construct, between, -, fails⟩
  revert fails
  split <;> exact (Total.pure _).not_error

theorem run_mockedDef?_some (mocks : MocksDef st mocked) : (mockedDef? st).run pass = .ok (some mocked, pass) := by
  unfold mockedDef? classified
  rw [mocks.construct]
  dsimp only
  rw [pure_bind, mocks.mock]
  dsimp only
  rw [if_neg mocks.sync]
  rfl

theorem run_mockedDef?_none {kind : Construct} (construct : Construct.classify st.body = .ok kind)
    (unmocked : ∀ mocked, ¬ MocksDef st mocked) : (mockedDef? st).run pass = .ok (none, pass) := by
  rw [mockedDef?_of_unmocked unmocked, classified, construct]
  rfl

theorem run_turn_error (kept : script.hoisted.contains cursor = false) (visible : isBlankLine line = false)
    (found : statementIn script.lines cursor line rest = .ok source)
    (same : st = statementOf script source line (behind source rest)) :
    (turn script floor level cursor line rest).run pass = .error error ↔
      (mockedDef? st).run pass = .error error ∨
      (mockedDef? st).run pass = .ok (none, pass) ∧ (statementStep script source st).run pass = .error error ∨
      ∃ mocked, (mockedDef? st).run pass = .ok (some mocked, pass) ∧
        ((mockedHead script source st (behind source rest)).run pass = .error error ∨
          ∃ head between, (mockedHead script source st (behind source rest)).run pass = .ok (head, between) ∧
            (mockedBody script st mocked ((behind source rest).take head.length)).run between = .error error) := by
  have mocking {mocked : MockedDef} {now : MockedHead → List Piece → Turn} :
      (mockedHead script source st (behind source rest) >>= fun head =>
        mockedBody script st mocked ((behind source rest).take head.length) >>= fun body => pure (now head body)).run
          pass = .error error ↔ _ := run_bind_error.trans (or_congr_right
    (exists_congr fun head => exists_congr fun between => and_congr_right fun _ => run_map_error))
  subst same
  rw [turn, if_neg (Bool.eq_false_iff.1 kept), if_neg (Bool.eq_false_iff.1 visible), nextStatement, found]
  dsimp only
  rw [pure_bind, run_bind_error]
  refine or_congr_right ⟨?_, ?_⟩
  · rintro ⟨mock?, between, asked, fails⟩
    obtain ⟨rfl, -, -⟩ := mockedDef?_ok asked
    cases mock? with
    | none => exact .inl ⟨asked, run_map_error.1 fails⟩
    | some mocked => exact .inr ⟨mocked, asked, mocking.1 fails⟩
  · rintro (⟨asked, fails⟩ | ⟨mocked, asked, fails⟩)
    · exact ⟨none, pass, asked, run_map_error.2 fails⟩
    · exact ⟨some mocked, pass, asked, mocking.2 fails⟩

theorem run_statementStep_error {kind : Construct} (construct : Construct.classify st.body = .ok kind)
    (other : kind ≠ .decorator) :
    (statementStep script source st).run pass = .error error ↔ Fails script error (st.call script pass) := by
  rw [run_statementStep construct other, Statement.call]
  split <;> rfl

theorem total_statementStep_decorator (construct : Construct.classify st.body = .ok .decorator) :
    Total (statementStep script source st) := by
  rw [statementStep, classified, construct]
  dsimp only
  rw [pure_bind]
  exact (total_count _).bind fun _ => .pure _

theorem Calls.fails (h : Calls script kind caller callee) (fails : Fails script error callee) :
    Fails script error caller := by
  cases h with
  | later taken =>
    rw [Fails, range_cons]
    exact run_bind_error.2 (.inr ⟨_, _, taken, run_bind_error.2 (.inl fails)⟩)
  | copy kept visible found same mocks headed filled =>
    rw [Fails, range_cons]
    refine run_bind_error.2 (.inl ((run_turn_error kept visible found same).2 (.inr (.inr ?_))))
    refine ⟨_, run_mockedDef?_some mocks, .inr ⟨_, _, headed, ?_⟩⟩
    rw [mockedBody, if_pos filled]
    exact fails
  | statement kept visible found same unmocked construct other =>
    rw [Fails, range_cons]
    refine run_bind_error.2 (.inl ((run_turn_error kept visible found same).2 (.inr (.inl ?_))))
    exact ⟨run_mockedDef?_none construct unmocked, (run_statementStep_error construct other).2 fails⟩
  | inline construct header headed =>
    rw [Fails, dispatch_of_classify construct]
    refine run_bind_error.2 (.inr ⟨_, _, run_count.2 rfl, ?_⟩)
    refine run_bind_error.2 (.inr ⟨_, _, inlineHeader_ok.2 ⟨_, header, rfl⟩, ?_⟩)
    exact run_bind_error.2 (.inr ⟨_, _, headed, run_map_error.2 fails⟩)

theorem Refuses.fails (h : Refuses script fault caller) : Fails script (.header fault) caller := by
  cases h with
  | range kept visible found refused =>
    rw [Fails, range_cons]
    refine run_bind_error.2 (.inl ((run_turn_error kept visible found rfl).2 (.inl ?_)))
    exact run_mockedDef?_error.2 ⟨fault, refused, rfl⟩
  | statement refused =>
    rw [Fails, dispatch]
    split
    · next found refused' =>
      rw [refused, Except.error.injEq] at refused'
      subst refused'
      rfl
    · next construct classified =>
      rw [refused] at classified
      cases classified
  | inline construct refused =>
    rw [Fails, dispatch_of_classify construct]
    refine run_bind_error.2 (.inr ⟨_, _, run_count.2 rfl, run_bind_error.2 (.inl ?_)⟩)
    exact run_map_error.2 (run_classified_error.2 ⟨fault, refused, rfl⟩)

def Traced (script : Script) (error : InstrumentError) (caller : Call) : Prop :=
  (∃ kind callee, Calls script kind caller callee ∧ Fails script error callee) ∨
    ∃ fault, Refuses script fault caller ∧ error = .header fault

theorem traced_of_turn (fails : (turn script floor level cursor line rest).run pass = .error error)
    (nonneg : 0 ≤ cursor) : Traced script error (.range floor level pending cursor (line :: rest) pass) := by
  have kept : script.hoisted.contains cursor = false := by
    by_contra hoisted
    rw [turn, if_pos (by simpa using hoisted)] at fails
    exact (Total.pure _).not_error fails
  have visible : isBlankLine line = false := by
    by_contra blank
    rw [turn, if_neg (Bool.eq_false_iff.1 kept), if_pos (by simpa using blank)] at fails
    exact (Total.pure _).not_error fails
  have found := statementIn_of_nonneg nonneg script.lines line rest
  generalize assemble cursor line rest = source at found
  obtain ⟨-, last, -, -⟩ := occupies_of_found nonneg found
  generalize same : statementOf script source line (behind source rest) = st
  have behind : 0 ≤ st.last := by
    rw [← same]
    simp only [statementOf]
    omega
  rcases (run_turn_error kept visible found same.symm).1 fails with fails | ⟨asked, fails⟩ | ⟨mocked, asked, fails⟩
  · obtain ⟨fault, refused, rfl⟩ := run_mockedDef?_error.1 fails
    exact .inr ⟨fault, .range kept visible found (same ▸ refused), rfl⟩
  · obtain ⟨-, -, unmocked⟩ := mockedDef?_ok asked
    cases construct : Construct.classify st.body with
    | error fault =>
      have refused : (mockedDef? st).run pass = .error (.header fault) := run_mockedDef?_error.2 ⟨fault, construct, rfl⟩
      rw [asked] at refused
      cases refused
    | ok kind =>
      by_cases other : kind = .decorator
      · subst other
        exact absurd fails (total_statementStep_decorator construct).not_error
      · exact .inl ⟨.statement, _, .statement kept visible found same.symm (unmocked rfl) construct other,
          (run_statementStep_error construct other).1 fails⟩
  · obtain ⟨-, mocks, -⟩ := mockedDef?_ok asked
    rcases fails with fails | ⟨head, between, headed, fails⟩
    · exact absurd fails (total_mockedHead behind _ _).not_error
    · unfold mockedBody at fails
      split at fails
      · next filled => exact .inl ⟨.copy, _, .copy kept visible found same.symm (mocks _ rfl) headed filled, fails⟩
      · exact absurd fails (Total.pure _).not_error

theorem traced_of_dispatch (fails : (dispatch script st).run pass = .error error) (nonneg : 0 ≤ st.last) :
    Traced script error (.dispatch st pass) := by
  cases construct : Construct.classify st.body with
  | error fault =>
    have refused : Refuses script fault (.dispatch st pass) := .statement construct
    have same := refused.fails
    rw [Fails, fails, Except.error.injEq] at same
    exact .inr ⟨fault, refused, same⟩
  | ok kind =>
    rw [dispatch_of_classify construct] at fails
    rcases run_bind_error.1 fails with fails | ⟨_, between, counted, fails⟩
    · exact absurd fails (total_count _).not_error
    cases run_count.1 counted
    by_cases inline : ∃ colon, kind = .inlineCompound colon
    · obtain ⟨colon, rfl⟩ := inline
      rcases run_bind_error.1 fails with fails | ⟨header, between, headed, fails⟩
      · obtain ⟨fault, refused, rfl⟩ := run_classified_error.1 (run_map_error.1 fails)
        exact .inr ⟨fault, .inline construct refused, rfl⟩
      · obtain ⟨kind, classified, same⟩ := inlineHeader_ok.1 headed
        cases same
        have behind : 0 ≤ (st.inlineHead colon).last := nonneg
        rcases run_bind_error.1 fails with fails | ⟨parts, between, headed, fails⟩
        · exact absurd fails (total_headerParts behind _).not_error
        · exact .inl ⟨.inline, _, .inline construct classified headed, run_map_error.1 fails⟩
    · have whole (colon : Nat) : kind ≠ .inlineCompound colon := fun same => inline ⟨colon, same⟩
      exact absurd fails (total_constructStep nonneg whole).not_error

theorem Fails.traced (fails : Fails script error caller) (within : caller.Within script start stop) :
    Traced script error caller := by
  cases caller with
  | range floor level pending cursor lines pass =>
    cases lines with
    | nil =>
      rw [Fails, range] at fails
      exact absurd fails (Total.pure _).not_error
    | cons line rest =>
      rw [Fails, range_cons] at fails
      rcases run_bind_error.1 fails with fails | ⟨now, between, taken, fails⟩
      · exact traced_of_turn fails within.2.2.nonneg
      · exact .inl ⟨.later, _, .later taken, run_map_error.1 fails⟩
  | dispatch st pass => exact traced_of_dispatch fails within

theorem Reaches.fails (h : Reaches script caller callee) (fails : Fails script error callee) :
    Fails script error caller := by
  induction h with
  | refl => exact fails
  | tail _ step ih =>
    obtain ⟨kind, step⟩ := step
    exact ih (step.fails fails)

theorem fails_iff_refused (within : caller.Within script start stop) :
    Fails script error caller ↔
      ∃ call fault, Reaches script caller call ∧ Refuses script fault call ∧ error = .header fault := by
  constructor
  · -- The chain of calls that fail has an end, since no chain is endless, and there a header is refused.
    intro fails
    induction terminates_of_within within with
    | intro caller _ ih =>
      rcases fails.traced within with ⟨kind, callee, step, fails⟩ | ⟨fault, refused, rfl⟩
      · obtain ⟨call, fault, reached, refused⟩ := ih callee ⟨kind, step⟩ (step.within within) fails
        exact ⟨call, fault, .head ⟨kind, step⟩ reached, refused⟩
      · exact ⟨caller, fault, .refl, refused, rfl⟩
  · rintro ⟨call, fault, reached, refused, rfl⟩
    exact reached.fails refused.fails

end Refused

/-! ## Ranges of a script -/

def firstCall (script : Script) (start stop : Int) (level : Nat) : Call :=
  .range level level [] start (linesAlong script.lines start stop) .start

variable {start stop : Int}

theorem within_firstCall (nonneg : 0 ≤ start) (order : start ≤ stop) (bound : stop ≤ script.lines.length) (level : Nat) :
    (firstCall script start stop level).Within script start stop := by
  refine ⟨Int.le_refl _, ?_, linesAt_linesAlong stop nonneg⟩
  rw [length_linesAlong nonneg order bound]
  omega

theorem rangeOf_error_iff (nonneg : 0 ≤ start) (bound : stop ≤ script.lines.length) (level : Nat) :
    rangeOf script start stop level = .error error ↔ Fails script error (firstCall script start stop level) := by
  have inside : rangeOf script start stop level =
      (range script level level [] start (linesAlong script.lines start stop)).run .start := by
    unfold rangeOf
    dsimp only
    rw [Int.min_eq_left bound, if_neg (by omega)]
    simp only [if_neg (show ¬ (start < stop ∧ (script.lines.length : Int) < stop) by omega), bind_pure]
  rw [inside]
  rfl

/-- Instrumenting a range of a script comes to an end: each call that is made works on less than its caller, within the
range, and no chain of calls is endless. There is a result, unless a call comes to a function header that is refused. -/
theorem rangeOf_terminates (script : Script) (start stop : Int) (level : Nat) (nonneg : 0 ≤ start)
    (order : start ≤ stop) (bound : stop ≤ script.lines.length) :
    Terminates script (firstCall script start stop level) ∧
    (∀ caller, Reaches script (firstCall script start stop level) caller →
      caller.Within script start stop ∧ ∀ kind callee, Calls script kind caller callee → kind.Shrinks caller callee) ∧
    ∀ error, rangeOf script start stop level = .error error ↔
      ∃ caller fault, Reaches script (firstCall script start stop level) caller ∧ Refuses script fault caller ∧
        error = .header fault := by
  have within := within_firstCall nonneg order bound level
  refine ⟨terminates_of_within within, ?_, ?_⟩
  · intro caller reached
    have inside := reached.within within
    exact ⟨inside, fun kind callee step => step.shrinks inside⟩
  · intro error
    rw [rangeOf_error_iff nonneg bound, fails_iff_refused within]

theorem rangeOf_terminates_nested :
    ∃ callee, Calls nestedScript .copy (firstCall nestedScript 0 6 0) callee ∧
      CallKind.copy.Shrinks (firstCall nestedScript 0 6 0) callee ∧
      Terminates nestedScript (firstCall nestedScript 0 6 0) := by
  have filled : (((mockedHead nestedScript nestedHeader nestedStatement (nestedScript.lines.drop 2)).run
      .start).toOption.all fun found => hasBody .standard ((nestedScript.lines.drop 2).take found.1.length) 0) = true := by
    decide +kernel
  obtain ⟨head, between, headed⟩ :=
    @total_mockedHead nestedScript nestedStatement (by decide +kernel) nestedHeader (nestedScript.lines.drop 2) .start
  rw [headed] at filled
  have mocks : MocksDef nestedStatement ⟨"f", ["a".toList, "b".toList], "1, 2"⟩ :=
    ⟨by decide +kernel, by decide +kernel, by decide +kernel⟩
  have step : Calls nestedScript .copy (firstCall nestedScript 0 6 0) _ :=
    .copy rfl rfl (statementIn_of_nonneg (Int.le_refl _) ..) rfl mocks headed filled
  obtain ⟨terminates, shrinks, -⟩ := rangeOf_terminates nestedScript 0 6 0 (by decide) (by decide) (by decide)
  exact ⟨_, step, (shrinks _ .refl).2 _ _ step, terminates⟩

def mixedScript : Script where
  lines := List.map String.toList ["def f(a='x' b'y'):", "    pass"]
  indent := .standard
  callLimit := 100
  hoisted := []

theorem rangeOf_mixed_default : rangeOf mixedScript 0 2 0 = .error (.header .mixedStrings) := by
  refine (rangeOf_error_iff (by decide) (by decide) 0).2 (Refuses.fails ?_)
  exact .range rfl rfl (statementIn_of_nonneg (Int.le_refl _) ..) (by decide +kernel)

end LineProbe.Instrument
