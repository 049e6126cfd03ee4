import LineProbe.Proofs.Alignment
import LineProbe.Proofs.Boundaries
import LineProbe.Proofs.MockedFunctions

/-!
# Instrumented programs without blocking calls

An instrumented script makes no blocking call, as long as nothing that is emitted as it stands has one: a decorator,
and a function with a mock directive.
-/

namespace LineProbe.Instrument

open Text Construct

variable {pass : Pass}

/-! ## Statements that the driver comes to -/

/-- A statement, with the block of the function that it begins if that function is mocked. -/
structure Visit where
  source : LogicalStatement
  block : Option (List Text)

def mockedLength? (script : Script) (st : Statement) : Option Nat :=
  match classify st.body, st.mock with
  | .ok (.defHeader ..), some _ =>
    if firstWord st.body = "async" then none
    else
      (blockEnd? script.indent st.level (statementHeads script.lines (st.last + 1) st.after)).toOption.map
        (lengthBefore (st.last + 1) st.after)
  | _, _ => none

/-- The statements that the driver comes to. The block of a mocked function is worked through on its own. -/
def visits (script : Script) (cursor : Int) : List Text → List Visit
  | [] => []
  | line :: rest =>
    if script.hoisted.contains cursor || isBlankLine line then visits script (cursor + 1) rest
    else
      let source := assemble cursor line rest
      let after := behind source rest
      match mockedLength? script (statementOf script source line after) with
      | none => ⟨source, none⟩ :: visits script (source.last + 1) after
      | some length =>
        ⟨source, some (after.take length)⟩ :: (visits script (source.last + 1) (after.take length) ++
          visits script (source.last + 1 + length) (after.drop length))
termination_by lines => lines.length
decreasing_by
  all_goals
    simp only [List.length_cons, List.length_take, List.length_drop]
    omega

theorem mockedLength?_eq_none (unmocked : ∀ mocked, ¬ MocksDef st mocked) : mockedLength? script st = none := by
  unfold mockedLength?
  split
  · next name params arguments construct mock =>
    split
    · rfl
    · next sync => exact absurd ⟨construct, mock, sync⟩ (unmocked ⟨name, params, arguments⟩)
  · rfl

theorem mockedLength?_eq_some (mocks : MocksDef st mocked)
    (stops : blockEnd? script.indent st.level (statementHeads script.lines (st.last + 1) st.after) = .ok stop) :
    mockedLength? script st = some (lengthBefore (st.last + 1) st.after stop) := by
  rw [mockedLength?, mocks.construct, mocks.mock]
  dsimp only
  rw [if_neg mocks.sync, stops]
  rfl

section Visits

theorem visits_skipped (skipped : script.hoisted.contains cursor ∨ isBlankLine line) :
    visits script cursor (line :: rest) = visits script (cursor + 1) rest := by
  rw [visits, if_pos (by simpa using skipped)]

theorem visits_statement (kept : script.hoisted.contains cursor = false) (visible : isBlankLine line = false)
    (unmocked : ∀ mocked, ¬ MocksDef (statementOf script (assemble cursor line rest) line
      (behind (assemble cursor line rest) rest)) mocked) :
    visits script cursor (line :: rest) = ⟨assemble cursor line rest, none⟩ ::
      visits script ((assemble cursor line rest).last + 1) (behind (assemble cursor line rest) rest) := by
  rw [visits, if_neg (by rw [kept, visible]; decide)]
  dsimp only
  rw [mockedLength?_eq_none unmocked]

theorem visits_mocked
    (kept : script.hoisted.contains cursor = false) (visible : isBlankLine line = false)
    (same : assemble cursor line rest = source) (left : behind source rest = after)
    (mocks : MocksDef (statementOf script source line after) mocked)
    (stops : blockEnd? script.indent (statementOf script source line after).level
      (statementHeads script.lines (source.last + 1) after) = .ok stop) :
    visits script cursor (line :: rest) =
      ⟨source, some (after.take (lengthBefore (source.last + 1) after stop))⟩ ::
        (visits script (source.last + 1) (after.take (lengthBefore (source.last + 1) after stop)) ++
          visits script (source.last + 1 + lengthBefore (source.last + 1) after stop)
            (after.drop (lengthBefore (source.last + 1) after stop))) := by
  subst same left
  rw [visits, if_neg (by rw [kept, visible]; decide)]
  dsimp only
  rw [mockedLength?_eq_some mocks stops]
  rfl

end Visits

/-! ## Tame statements -/

namespace Visit

def text (visit : Visit) : Text :=
  joinLines (visit.source.lines ++ visit.block.getD [])

def isDecorator (visit : Visit) : Bool :=
  visit.source.body.head? == some '@'

structure Restrained (visit : Visit) : Prop where
  closed : ∀ call ∈ blockingCalls visit.source.body, (matchingBracket? visit.source.body call.openParen).isSome = true
  silent : ∀ mock ∈ visit.source.directives.mock, blockingCalls mock = []

/-- What is asked of a statement for its program to make no blocking call. -/
structure Tame (visit : Visit) : Prop extends Restrained visit where
  raw : visit.isDecorator = true ∨ visit.block.isSome = true → blockingCalls visit.text = []
  ended : visit.source.carryOut = .closed ∧ (Mode.code.run visit.text).carry = .closed
  balanced : ∀ mock ∈ visit.source.directives.mock, Closed mock
  apart : ∀ span ∈ blockingSpans visit.source.body, endsInName (visit.source.body.take span.start) = false
  last : visit.isDecorator = true → endsInName visit.text = false
  passed : passesThrough visit.source.body = true → endsInName visit.source.body = false

end Visit

instance (visit : Visit) : Decidable visit.Restrained :=
  decidable_of_iff
    ((∀ call ∈ blockingCalls visit.source.body, (matchingBracket? visit.source.body call.openParen).isSome = true) ∧
      ∀ mock ∈ visit.source.directives.mock, blockingCalls mock = [])
    ⟨fun h => ⟨h.1, h.2⟩, fun h => ⟨h.closed, h.silent⟩⟩

instance (visit : Visit) : Decidable visit.Tame :=
  decidable_of_iff
    (visit.Restrained ∧
      (visit.isDecorator = true ∨ visit.block.isSome = true → blockingCalls visit.text = []) ∧
      (visit.source.carryOut = .closed ∧ (Mode.code.run visit.text).carry = .closed) ∧
      (∀ mock ∈ visit.source.directives.mock, Closed mock) ∧
      (∀ span ∈ blockingSpans visit.source.body, endsInName (visit.source.body.take span.start) = false) ∧
      (visit.isDecorator = true → endsInName visit.text = false) ∧
      (passesThrough visit.source.body = true → endsInName visit.source.body = false))
    ⟨fun ⟨restrained, raw, ended, balanced, apart, last, passed⟩ =>
        ⟨restrained, raw, ended, balanced, apart, last, passed⟩,
      fun h => ⟨h.toRestrained, h.raw, h.ended, h.balanced, h.apart, h.last, h.passed⟩⟩

/-! ## One statement -/

section Assembled

theorem exists_cut_assemble (oneLine : ∀ text ∈ line :: rest, '\n' ∉ text)
    (ended : (assemble cursor line rest).carryOut = .closed) :
    ∃ blanks comment, Cut (assemble cursor line rest) blanks comment := by
  obtain ⟨front, joined⟩ := exists_joined cursor .closed 0 oneLine
  exact exists_cut ended joined

theorem carry_run_body (visible : isBlankLine line = false) (cut : Cut (assemble cursor line rest) blanks comment) :
    (Mode.code.run (assemble cursor line rest).body).carry = .closed := by
  have settled := cut.settled
  rw [← leadingBlanks_append_body_assemble cursor rest visible, Mode.run_append,
    Mode.run_blanks_code fun c => isBlankChar_of_mem_leadingBlanks] at settled
  exact Mode.carry_of_settled settled

theorem Visit.Tame.calm_mock {visit : Visit} (tame : visit.Tame) :
    ∀ mock ∈ visit.source.directives.mock, Calm [] mock := by
  intro mock given
  have settled : (Mode.code.run mock).isSettled :=
    Reader.mode_run Reader.start mock ▸ (tame.balanced mock given).settled
  exact ⟨blockingCalls_eq_nil_iff.1 (tame.silent mock given), Mode.carry_of_settled settled⟩

theorem isDecorator_of_classify {visit : Visit} (h : classify visit.source.body = .ok .decorator) :
    visit.isDecorator := by
  cases classify_ok h with
  | decorator found => exact beq_iff_eq.2 (decorator?_iff.1 found).1

theorem Stepped.hushes
    (h : Stepped script (assemble cursor line rest) (statementOf script (assemble cursor line rest) line after) pass
      step pass')
    (visible : isBlankLine line = false) (oneLine : ∀ text ∈ line :: rest, '\n' ∉ text)
    (tame : Visit.Tame ⟨assemble cursor line rest, none⟩) :
    Hushes script.indent step.pieces ∧ Hushes script.indent step.prologue := by
  obtain ⟨blanks, comment, cut⟩ := exists_cut_assemble oneLine tame.ended.1
  have ended := carry_run_body visible cut
  have body := body_statementOf script cursor rest after visible
  have indented (c : Char) (mem : c ∈ leadingBlanks line) : isBlankChar c := isBlankChar_of_mem_leadingBlanks mem
  generalize assemble cursor line rest = source at *
  cases h with
  | decorator construct =>
    have found : Visit.isDecorator ⟨source, none⟩ := isDecorator_of_classify (body ▸ construct)
    have text : Visit.text ⟨source, none⟩ = source.text := by
      simp [Visit.text, LogicalStatement.text]
    have alone := blockingCalls_eq_nil_iff.1 (tame.raw (.inl found))
    have last := tame.last found
    have whole := tame.ended.2
    rw [text] at alone last whole
    have silent : Silent ['('] ([] : Text).getLast? (Mode.code.run []) source.text := alone.paren last
    exact ⟨.cons ⟨silent, whole⟩ .nil, .nil⟩
  | kept construct other free dispatched =>
    have calm {behind : Text} (last : behind = [] ∨ behind = ['('] ∧ endsInName source.body = false) :
        Calm behind source.body :=
      ⟨silent_of_not_hasBlockingCall tame.closed (body ▸ free) last, ended⟩
    refine dispatched.hushes indented ?_ tame.calm_mock ?_
    · rw [body]
      exact calm (.inl rfl)
    · rw [body]
      exact fun through => calm (.inr ⟨rfl, tame.passed through⟩)
  | replaced construct other blocking dispatched =>
    have sound : source.directives.Sound := ⟨tame.silent, tame.balanced⟩
    have replaced : (Statement.replaced script (statementOf script source line after) pass.next).body =
        (substituteBlocking source.body source.first source.directives script.callLimit pass.next).1 := by
      rw [← body]
      rfl
    have swapped := (substituteBlocking_swapped source.body source.first script.callLimit pass.next
      (silent_mockValue sound).2).operands
    rw [← replaced] at swapped
    have calm {behind : Text} (last : behind = [] ∨ behind = ['('] ∧ endsInName source.body = false) :
        Calm behind (Statement.replaced script (statementOf script source line after) pass.next).body := by
      refine ⟨?_, swapped.mode_run ▸ ended⟩
      rw [replaced]
      exact silent_substituteBlocking _ _ _ sound tame.closed tame.apart last
    exact dispatched.hushes indented (calm (.inl rfl)) (by rintro mock ⟨⟩) fun through =>
      calm (.inr ⟨rfl, tame.passed (passesThrough_swapped swapped through)⟩)

/-! ## One mocked function -/

theorem Visit.Tame.calm_block {source : LogicalStatement} {block : List Text} (tame : Visit.Tame ⟨source, some block⟩)
    (ended : (Mode.code.run source.text).carry = .closed) (filled : block ≠ []) : Calm [] (joinLines block) := by
  have text : Visit.text ⟨source, some block⟩ = source.text ++ '\n' :: joinLines block :=
    joinLines_append (by simp [LogicalStatement.lines]) filled
  have silent := blockingCalls_eq_nil_iff.1 (tame.raw (.inr rfl))
  have whole := tame.ended.2
  rw [text, silent_append, silent_cons, Mode.next_newline, ended] at silent
  rw [text, Mode.run_append, Mode.run_cons, Mode.next_newline, ended] at whole
  exact ⟨silent.2.2.behind_of fun _ => rfl, whole⟩

theorem Visit.Tame.calm_body {block : List Text} (tame : Visit.Tame ⟨assemble cursor line rest, some block⟩)
    (visible : isBlankLine line = false) (cut : Cut (assemble cursor line rest) blanks comment) :
    Calm [] (assemble cursor line rest).body := by
  obtain ⟨tail, text⟩ : ∃ tail, Visit.text ⟨assemble cursor line rest, some block⟩ =
      leadingBlanks line ++ ((assemble cursor line rest).body ++ tail) := by
    have header := cut.text
    rw [← leadingBlanks_append_body_assemble cursor rest visible, List.append_assoc] at header
    by_cases empty : block = []
    · exact ⟨_, by rw [← header, empty]; simp [Visit.text, LogicalStatement.text]⟩
    · refine ⟨blanks ++ comment ++ '\n' :: joinLines block, ?_⟩
      rw [← List.append_assoc, ← List.append_assoc, List.append_assoc (leadingBlanks line), ← header]
      exact joinLines_append (by simp [LogicalStatement.lines]) empty
  have silent := blockingCalls_eq_nil_iff.1 (tame.raw (.inr rfl))
  rw [text, silent_blanks_append fun c => isBlankChar_of_mem_leadingBlanks, silent_append] at silent
  exact ⟨silent.1.alone, carry_run_body visible cut⟩

theorem MocksDef.hushes
    (mocks : MocksDef (statementOf script (assemble cursor line rest) line after) mocked)
    (guarded : Guards (statementOf script (assemble cursor line rest) line after)
      ((statementOf script (assemble cursor line rest) line after).level + 1) pass guards pass')
    (visible : isBlankLine line = false) (oneLine : ∀ text ∈ line :: rest, '\n' ∉ text)
    (tame : Visit.Tame ⟨assemble cursor line rest, some block⟩) (inner : Hushes script.indent body) :
    Hushes script.indent (mockedPieces script.indent (assemble cursor line rest)
      (statementOf script (assemble cursor line rest) line after) block mocked shadow guards body) := by
  obtain ⟨blanks, comment, cut⟩ := exists_cut_assemble oneLine tame.ended.1
  obtain ⟨behind, shape⟩ := mocks.shape
  rw [body_statementOf script cursor rest after visible] at shape
  have indented (c : Char) (mem : c ∈ leadingBlanks line) : isBlankChar c := isBlankChar_of_mem_leadingBlanks mem
  have calm := tame.calm_body visible cut
  have arguments : Calm [] mocked.arguments := tame.calm_mock _ mocks.mock
  have text := cut.text
  rw [← leadingBlanks_append_body_assemble cursor rest visible] at text
  have free : '\n' ∉ comment := fun mem => cut.oneLine (List.mem_append_right _ mem)
  have header : Calm ['('] (assemble cursor line rest).text := by
    rw [text]
    exact calm_headerText indented calm shape.last cut.blank free cut.comment
  have renamed : Calm ['('] (renameDef mocked.name shadow.name none (assemble cursor line rest).text) := by
    rw [text, shape.renameDef_eq indented]
    exact calm_headerText indented (shape.calm_renamed calm shadow) (shape.endsWithChar_append _) cut.blank free
      cut.comment
  have shut : Shut (renameDef mocked.name shadow.name none (assemble cursor line rest).text) := by
    rw [text, shape.renameDef_eq indented, List.append_assoc]
    exact Shut.blanks_append ⟨'d', _, rfl, by decide⟩ indented
  refine hushes_mockedPieces guarded header renamed shut (fun filled => tame.calm_block header.ended ?_) inner arguments
  rintro rfl
  cases filled

end Assembled

/-! ## Whole runs -/

theorem Hushes.placePrologue (documents : Bool) (before : Hushes config pending) (after : Hushes config pieces) :
    Hushes config (placePrologue documents pending pieces) := by
  unfold Instrument.placePrologue
  split
  · exact after.append before
  · exact before.append after

theorem hushes_blankPieces (script : Script) (cursor : Int) (floor level : Nat) (after : List Text) :
    Hushes script.indent (blankPieces script cursor floor level after) := by
  unfold blankPieces
  cases blankLevel? script cursor floor level after with
  | none => exact .nil
  | some level => exact .cons (calm_injected _ level plain_bareProbe cursor) .nil

theorem past_nonneg (nonneg : 0 ≤ cursor) : 0 ≤ (assemble cursor line rest).last + 1 := by
  rw [last_assemble]
  omega

theorem forall_mem_drop {property : Text → Prop} (all : ∀ text ∈ line :: rest, property text) (count : Nat) :
    ∀ text ∈ rest.drop count, property text :=
  fun text mem => all text (List.mem_cons_of_mem _ (List.mem_of_mem_drop mem))

theorem Runs.hushes (run : Runs script floor level pending cursor lines pass pieces pass') (nonneg : 0 ≤ cursor)
    (oneLine : ∀ line ∈ lines, '\n' ∉ line) (tame : ∀ visit ∈ visits script cursor lines, visit.Tame)
    (before : Hushes script.indent pending) : Hushes script.indent pieces := by
  induction run with
  | done => exact before
  | hoisted hoisted _ ih =>
    rw [visits_skipped (.inl hoisted)] at tame
    exact before.append (ih (by omega) (forall_mem_drop oneLine 0) tame .nil)
  | blank _ blank _ ih =>
    rw [visits_skipped (.inr blank)] at tame
    exact (before.append (hushes_blankPieces ..)).append (ih (by omega) (forall_mem_drop oneLine 0) tame .nil)
  | statement kept visible found unmocked stepped _ ih =>
    obtain rfl := assemble_eq_of_found nonneg found
    rw [visits_statement kept visible unmocked, List.forall_mem_cons] at tame
    obtain ⟨here, prologue⟩ := stepped.hushes visible oneLine tame.1
    exact (before.placePrologue _ here).append (ih (past_nonneg nonneg) (forall_mem_drop oneLine _) tame.2 prologue)
  | mocked kept visible found same mocks stops cut guarded filled _ _ inner ih =>
    obtain rfl := assemble_eq_of_found nonneg found
    subst same cut
    rw [visits_mocked kept visible rfl rfl mocks stops, List.forall_mem_cons, List.forall_mem_append] at tame
    have body := inner (past_nonneg nonneg) (fun text mem => forall_mem_drop oneLine _ text (List.mem_of_mem_take mem)) tame.2.1
      (hushes_mockedPrologue mocks)
    have later := ih (Int.add_nonneg (past_nonneg nonneg) (Int.natCast_nonneg _))
      (fun text mem => forall_mem_drop oneLine _ text (List.mem_of_mem_drop mem)) tame.2.2 .nil
    exact (before.placePrologue _ (mocks.hushes guarded visible oneLine tame.1 body)).append later
  | mockedEmpty kept visible found same mocks stops cut guarded empty _ ih =>
    obtain rfl := assemble_eq_of_found nonneg found
    subst same cut
    rw [visits_mocked kept visible rfl rfl mocks stops, List.forall_mem_cons, List.forall_mem_append] at tame
    have prologue : Hushes script.indent _ := hushes_mockedPrologue mocks
    have later := ih (Int.add_nonneg (past_nonneg nonneg) (Int.natCast_nonneg _))
      (fun text mem => forall_mem_drop oneLine _ text (List.mem_of_mem_drop mem)) tame.2.2 .nil
    exact (before.placePrologue _ (mocks.hushes guarded visible oneLine tame.1 (hushes_orPass prologue))).append later

/-! ## Whole programs -/

theorem joinLines_renderPieces (config : IndentConfig) (pieces : List Piece) :
    joinLines ((renderPieces config pieces).map GeneratedLine.text) = joinLines (pieces.map (Piece.text config)) := by
  cases pieces with
  | nil => rfl
  | cons piece pieces =>
    have filled : (renderPieces config (piece :: pieces)).map GeneratedLine.text ≠ [] := by
      intro empty
      have texts := splitNewlines_texts config piece
      rw [renderPieces, List.flatMap_cons, List.map_append, List.append_eq_nil_iff] at empty
      rw [empty.1] at texts
      exact splitAtChar_ne_nil _ _ texts.symm
    have same : splitNewlines (joinLines ((renderPieces config (piece :: pieces)).map GeneratedLine.text)) =
        splitNewlines (joinLines ((piece :: pieces).map (Piece.text config))) := by
      obtain ⟨line, lines, whole⟩ := List.exists_cons_of_ne_nil filled
      rw [whole, splitNewlines_joinLines, ← whole, List.map_cons, splitNewlines_joinLines, ← List.map_cons,
        renderPieces, List.map_flatMap, List.flatMap_assoc, List.flatMap_map]
      exact List.flatMap_congr fun piece _ => splitNewlines_texts config piece
    have rejoined (text : Text) : joinLines (splitNewlines text) = text := join_splitAtChar '\n' text
    rw [← rejoined (joinLines ((renderPieces config (piece :: pieces)).map GeneratedLine.text)), same, rejoined]

/-- The body of an instrumented program makes no blocking call, if all statements of the script are tame. -/
theorem instrumented_not_blocking {source : Text} {indent : IndentConfig} {callLimit : Int} {program : Program}
    (h : instrument source indent callLimit = .ok program)
    (tame : ∀ visit ∈ visits (.ofSource source indent callLimit) 0 (splitLines source), visit.Tame) :
    hasBlockingCall (joinLines (program.body.map GeneratedLine.text) ++ ['\n']) = false := by
  obtain ⟨pieces, pass, run, -, body⟩ := instrument_ok h
  have hushed := (range_ok run).hushes (Int.le_refl 0) (fun _ => newline_not_mem_splitLines) tame .nil
  have follows : ¬ OpensParen (['\n'] ++ []) := by
    rw [OpensParen]
    decide
  rw [body, joinLines_renderPieces]
  apply hasBlockingCall_eq_false
  exact silent_append.2 ⟨(silent_joinLines hushed).inert (stops_newline []) follows, silent_plain (by decide)⟩

def blockingSource : Text :=
  ("@c('input()')\ndef f(a=input()):\n    for b in [a,\n      getpass()]: x = b\n    raise x\n" ++
    "def g(c):  # mock(1)\n    return c\ny = input()  # mock('input()')").toList

theorem instrumented_not_blocking_sample :
    ∃ program, instrument blockingSource .standard 100 = .ok program ∧
      (∀ visit ∈ visits (.ofSource blockingSource .standard 100) 0 (splitLines blockingSource), visit.Tame) ∧
      hasBlockingCall (joinLines (program.body.map GeneratedLine.text) ++ ['\n']) = false := by
  have tame : ∀ visit ∈ visits (.ofSource blockingSource .standard 100) 0 (splitLines blockingSource), visit.Tame := by
    decide +kernel
  have runs : (instrument blockingSource .standard 100).isOk = true := by
    decide +kernel
  obtain ⟨program, run⟩ := exists_ok runs
  exact ⟨program, run, tame, instrumented_not_blocking run tame⟩

/-- All statements of the script are restrained, and yet its program makes a blocking call. -/
def StaysBlocking (source : String) : Prop :=
  (∀ visit ∈ visits (.ofSource source.toList .standard 100) 0 (splitLines source.toList), visit.Restrained) ∧
    ((instrument source.toList .standard 100).toOption.any fun program =>
      hasBlockingCall (joinLines (program.body.map GeneratedLine.text) ++ ['\n'])) = true

instance : DecidablePred StaysBlocking := fun _ => inferInstanceAs (Decidable (_ ∧ _))

/-- A blocking call is left in a decorator and in a function that is mocked, and one comes about where a string is
left open by a statement or by a mock, or where a bare name comes to stand before a parenthesis. -/
theorem blocking_call_left :
    StaysBlocking "@f(input())\ndef g():\n    pass" ∧ StaysBlocking "def f(a):  # mock(1)\n    return input()" ∧
      StaysBlocking "for x[\"input()\"] in \"b:" ∧ StaysBlocking "x = input() + 'input()'  # 'mock(a'(b)" ∧
      StaysBlocking "getpass input()" ∧ StaysBlocking "@input\n(a)" ∧ StaysBlocking "raise input\n(a)" := by
  decide +kernel

end LineProbe.Instrument
