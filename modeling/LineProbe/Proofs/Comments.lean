import LineProbe.Proofs.Layout
import LineProbe.Proofs.Neighbours
import LineProbe.Proofs.Recommented

/-!
# Comments have no influence

Two scripts that differ in nothing but comments without directives become the same pieces.
-/

namespace LineProbe

open Text

inductive Alike (line line' : Text) : Prop where
  | blank (blank : isBlankLine line = true) (blank' : isBlankLine line' = true)
  | marked (same : SameToMark line line')

namespace DifferInComments

open Instrument

theorem forall₂ (h : DifferInComments lines lines') : List.Forall₂ Alike lines lines' := by
  induction h with
  | nil => exact .nil
  | blank blank blank' _ ih => exact .cons (.blank blank blank') ih
  | @statement line final rest behind _ ends _ ih =>
    have cut : line :: rest = (assemble 0 line rest).before ++ (assemble 0 line rest).final ::
        rest.drop (assemble 0 line rest).extent := by
      rw [List.append_cons, ← LogicalStatement.lines, lines_assemble, List.cons_append, List.take_append_drop]
    rw [cut]
    refine List.rel_append (List.forall₂_same.2 fun line _ => .marked (.same line)) ?_
    exact .cons (.marked ends.last.sameToMark) ih

theorem nextCode? (h : DifferInComments lines lines') :
    (nextCode? lines = none ∧ Instrument.nextCode? lines' = none) ∨
      ∃ line line', Instrument.nextCode? lines = some line ∧ Instrument.nextCode? lines' = some line' ∧
        Recommented .closed line line' := by
  induction h using by_statements with
  | nil => exact .inl ⟨rfl, rfl⟩
  | blank blank blank' _ ih =>
    rw [nextCode?_blank blank, nextCode?_blank blank']
    exact ih
  | statement visible same =>
    rw [nextCode?_visible visible, nextCode?_visible (same.opening.sameToMark.isBlankLine.trans visible)]
    exact .inr ⟨_, _, rfl, rfl, same.opening⟩

theorem siblingBranches (h : DifferInComments lines lines') (script script' : Script) (config : IndentConfig)
    (level : Nat) {index : Int} (nonneg : 0 ≤ index) :
    siblingBranches config level (statementHeads script'.lines index lines') =
      Instrument.siblingBranches config level (statementHeads script.lines index lines) := by
  induction h using by_statements generalizing index with
  | nil => rw [statementHeads, statementHeads]
  | blank blank blank' _ ih =>
    rw [statementHeads_blank blank, statementHeads_blank blank', Instrument.siblingBranches, Instrument.siblingBranches,
      blank, blank', Bool.true_or, Bool.true_or, if_pos rfl, if_pos rfl, ih (by omega)]
  | @statement line line' rest rest' visible same ih =>
    have opening := same.opening.sameToMark
    obtain ⟨final, ends⟩ := same.ends
    have later := @ih index ((assemble index line rest).last + 1) (by rw [last_assemble]; omega)
    rw [statementHeads_visible nonneg visible, statementHeads_visible nonneg (opening.isBlankLine.trans visible),
      Instrument.siblingBranches, Instrument.siblingBranches, opening.isBlankLine, opening.measure, opening.trim.firstWord,
      (ends index).2]
    dsimp only [behind, LogicalStatement.extent] at later ⊢
    rw [later]

end DifferInComments

namespace Instrument

/-! ## What is asked of other lines -/

theorem find?_visible_alike (alike : List.Forall₂ Alike lines lines') :
    ((lines'.find? (!isBlankLine ·)).any fun line => (trimLeft line).head? == some '@') =
      (lines.find? (!isBlankLine ·)).any fun line => (trimLeft line).head? == some '@' := by
  induction alike with
  | nil => rfl
  | @cons line line' rest rest' same _ ih =>
    cases same with
    | blank blank blank' => simpa only [List.find?_cons, blank, blank', Bool.not_true] using ih
    | marked same =>
      rw [List.find?_cons, List.find?_cons, same.isBlankLine]
      cases isBlankLine line with
      | true => exact ih
      | false => simp only [Bool.not_false, Option.any_some, same.trimLeft.head?]

theorem followsDecorator_congr (alike : List.Forall₂ Alike script.lines lines) (cursor : Int) :
    followsDecorator { script with lines } cursor = followsDecorator script cursor :=
  find?_visible_alike (List.forall₂_reverse_iff.2 (List.forall₂_take cursor.toNat alike))

theorem blankPieces_congr (alike : List.Forall₂ Alike script.lines lines) (later : DifferInComments rest rest')
    (cursor : Int) (floor level : Nat) :
    blankPieces { script with lines } cursor floor level rest' = blankPieces script cursor floor level rest := by
  unfold blankPieces blankLevel?
  rw [followsDecorator_congr alike]
  rcases later.nextCode? with ⟨none, none'⟩ | ⟨next, next', some, some', same⟩
  · rw [none, none']
  · simp only [some, some', same.sameToMark.measure, same.isClauseLine]

structure SameOutlook (script : Script) (lines : List Text) (st : Statement) (after : List Text) : Prop where
  level : (nextCode? after).map script.indent.measure = (nextCode? st.after).map script.indent.measure
  siblings : ∀ level, siblingBranches script.indent level (statementHeads lines (st.last + 1) after) =
    siblingBranches script.indent level (statementHeads script.lines (st.last + 1) st.after)

theorem sameOutlook {script : Script} {lines after : List Text} {st : Statement}
    (later : DifferInComments st.after after) (nonneg : 0 ≤ st.last + 1) : SameOutlook script lines st after where
  level := by
    rcases later.nextCode? with ⟨none, none'⟩ | ⟨next, next', some, some', same⟩
    · rw [none, none']
    · rw [some, some', Option.map_some, Option.map_some, same.sameToMark.measure]
  siblings level := later.siblingBranches script { script with lines } script.indent level nonneg

/-! ## Steps -/

namespace SameOutlook

theorem hasBody (h : SameOutlook script lines st after) (level : Nat) :
    hasBody script.indent after level = Instrument.hasBody script.indent st.after level := by
  have same (lines : List Text) :
      Instrument.hasBody script.indent lines level = ((nextCode? lines).map script.indent.measure).any (level < ·) := by
    rw [Instrument.hasBody, Option.any_map]
  rw [same, same, h.level]

theorem nextLevel (h : SameOutlook script lines st after) (default : Nat) :
    nextLevel script.indent after default = Instrument.nextLevel script.indent st.after default := by
  rw [Instrument.nextLevel, Instrument.nextLevel, h.level]

theorem headerParts (h : SameOutlook script lines st after) (construct : Construct) :
    headerParts { script with lines } { st with after } construct = Instrument.headerParts script st construct := by
  have marks : branchMarks { script with lines } { st with after } construct = branchMarks script st construct := by
    unfold branchMarks
    simp only [h.siblings]
    rfl
  unfold Instrument.headerParts
  rw [marks]
  rfl

theorem headerStep (h : SameOutlook script lines st after) (construct : Construct) :
    headerStep { script with lines } { st with after } construct = Instrument.headerStep script st construct := by
  unfold Instrument.headerStep
  rw [h.headerParts, h.hasBody]
  rfl

theorem returnStep (h : SameOutlook script lines st after) (value : Text) :
    returnStep script.indent { st with after } value = Instrument.returnStep script.indent st value := by
  unfold Instrument.returnStep
  rw [h.nextLevel]
  rfl

theorem ignorableStep (h : SameOutlook script lines st after) :
    ignorableStep script.indent { st with after } = Instrument.ignorableStep script.indent st := by
  unfold Instrument.ignorableStep
  rw [h.nextLevel]
  rfl

end SameOutlook

theorem dispatch_congr {script : Script} {lines after : List Text} {st : Statement}
    (h : SameOutlook script lines st after) :
    dispatch { script with lines } { st with after } = dispatch script st := by
  -- On the length of the body: the body of an inline compound is a statement with the same lines behind it.
  induction size : st.body.length using Nat.strong_induction_on generalizing st with
  | _ n ih =>
    rw [dispatch, dispatch]
    dsimp only
    split
    · rfl
    · next kind construct =>
      refine bind_congr fun _ => ?_
      cases kind with
      | returning value => exact h.returnStep value
      | ignorable => exact h.ignorableStep
      | forHeader | defHeader | blockHeader => exact h.headerStep _
      | inlineCompound colon =>
        have head : SameOutlook script lines (st.inlineHead colon) after := ⟨h.level, h.siblings⟩
        have body : SameOutlook script lines (st.inlineBody script.indent colon) after := ⟨h.level, h.siblings⟩
        refine bind_congr fun header => ?_
        show (do
          let parts ← Instrument.headerParts { script with lines } { st.inlineHead colon with after } header
          let inner ← dispatch { script with lines } { st.inlineBody script.indent colon with after }
          return (⟨parts.before ++ parts.header ++ parts.prologue ++ inner.pieces ++ inner.prologue, st.level, []⟩ : Step)) = _
        rw [head.headerParts, ih _ (size ▸ length_inlineBody_lt construct) body rfl]
      | _ => rfl

theorem statementStep_congr (h : SameOutlook script lines st after)
    (text : Construct.classify st.body = .ok .decorator → source'.text = source.text) :
    statementStep { script with lines } source' { st with after } = statementStep script source st := by
  have dispatched (body : Text) (mock : Option Text) (guarded : Bool) :
      dispatch { script with lines } { st with after, body, mock, guarded } =
        dispatch script { st with body, mock, guarded } :=
    @dispatch_congr script lines after { st with body, mock, guarded } ⟨h.level, h.siblings⟩
  unfold statementStep classified
  cases construct : Construct.classify st.body with
  | error fault => rfl
  | ok kind =>
    dsimp only
    rw [pure_bind, pure_bind]
    cases kind with
    | decorator => rw [text construct]
    | _ => simp only [dispatched]

section Turns

theorem range_hoisted (hoisted : script.hoisted.contains cursor) :
    range script floor level pending cursor (line :: rest) = (do
      let later ← range script floor level [] (cursor + 1) rest
      return pending ++ later) := by
  rw [range, if_pos hoisted]

theorem range_blank (kept : script.hoisted.contains cursor = false) (blank : isBlankLine line) :
    range script floor level pending cursor (line :: rest) = (do
      let later ← range script floor level [] (cursor + 1) rest
      return pending ++ blankPieces script cursor floor level rest ++ later) := by
  rw [range, kept, if_neg Bool.false_ne_true, if_pos blank]

theorem range_statement (kept : script.hoisted.contains cursor = false) (nonneg : 0 ≤ cursor)
    (visible : isBlankLine line = false) (unmocked : mocksDef (assemble cursor line rest) = false) :
    range script floor level pending cursor (line :: rest) = (do
      let source := assemble cursor line rest
      let st := statementOf script source line (behind source rest)
      let _ ← classified st.body
      let step ← statementStep script source st
      let later ← range script floor step.nextLevel step.prologue (source.last + 1) (behind source rest)
      return placePrologue (Construct.isDocstring line) pending step.pieces ++ later) := by
  rw [range, kept, visible, nextStatement, statementIn_of_nonneg nonneg]
  simp only [Bool.false_eq_true, if_false, pure_bind]
  rw [mockedDef?_of_unmocked (not_mocksDef_of_unmocked visible unmocked)]
  simp only [bind_assoc, pure_bind]

end Turns

/-! ## Scripts -/

section Reworded

variable {script : Script} {lines rest after after' : List Text}

theorem statementOf_congr (script : Script) (lines after after' : List Text) (opening : Recommented .closed line line')
    (ends : (assemble cursor line rest).MayEnd final) :
    statementOf { script with lines } { assemble cursor line rest with final } line' after' =
      { statementOf script (assemble cursor line rest) line after with after := after' } := by
  have code := ends.code (carryOut_assembleFrom ..)
  have directives := ends.directives
  rw [LogicalStatement.directives, LogicalStatement.directives] at directives
  rw [statementOf, statementOf, opening.sameToMark.leadingBlanks, opening.sameToMark.measure, code, directives]

theorem step_congr (visible : isBlankLine line = false) (opening : Recommented .closed line line')
    (ends : (assemble cursor line rest).MayEnd final) (later : DifferInComments after after')
    (nonneg : 0 ≤ (assemble cursor line rest).last + 1) :
    statementStep { script with lines } { assemble cursor line rest with final }
        (statementOf { script with lines } { assemble cursor line rest with final } line' after') =
      statementStep script (assemble cursor line rest) (statementOf script (assemble cursor line rest) line after) := by
  rw [statementOf_congr script lines after after' opening ends]
  apply statementStep_congr (sameOutlook later nonneg)
  intro decorates
  rw [body_statementOf script cursor rest _ visible] at decorates
  exact ends.text decorates

theorem mocksDef_congr (ends : (assemble cursor line rest).MayEnd final) :
    mocksDef { assemble cursor line rest with final } = mocksDef (assemble cursor line rest) := by
  have body : LogicalStatement.body { assemble cursor line rest with final } = (assemble cursor line rest).body :=
    congrArg trimLeft (ends.code (carryOut_assembleFrom ..))
  rw [mocksDef, mocksDef, body, ends.directives]

end Reworded

theorem range_congr {script : Script} {lines rest rest' : List Text} {cursor : Int} {floor level : Nat}
    {pending : List Piece}
    (alike : List.Forall₂ Alike script.lines lines) (differ : DifferInComments rest rest')
    (here : LinesFrom script.lines cursor rest)
    (unmocked : ∀ source ∈ statementsFrom script.lines cursor rest, mocksDef source = false)
    (single : ∀ source ∈ statementsFrom script.lines cursor rest,
      script.hoisted.contains source.first → source.before = []) :
    range { script with lines } floor level pending cursor rest' = range script floor level pending cursor rest := by
  have kept (cursor : Int) : ({ script with lines } : Script).hoisted.contains cursor = script.hoisted.contains cursor := rfl
  induction differ using DifferInComments.by_statements generalizing level pending cursor with
  | nil => rw [range, range]
  | blank blank blank' later ih =>
    rw [statementsFrom_blank blank] at unmocked single
    have later' := @ih (cursor + 1) level [] here.next unmocked single
    cases hoisted : script.hoisted.contains cursor with
    | true => rw [range_hoisted hoisted, range_hoisted ((kept cursor).trans hoisted), later']
    | false =>
      rw [range_blank hoisted blank, range_blank ((kept cursor).trans hoisted) blank', later',
        blankPieces_congr alike later]
  | @statement line line' rest rest' visible same ih =>
    have visible' := same.opening.sameToMark.isBlankLine.trans visible
    obtain ⟨final, both⟩ := same.ends
    obtain ⟨ends, whole⟩ := both cursor
    rw [statementsFrom_visible here visible, List.forall_mem_cons] at unmocked single
    have later (level : Nat) (pending : List Piece) := @ih cursor _ level pending here.behind unmocked.2 single.2
    cases hoisted : script.hoisted.contains cursor with
    | true =>
      -- Hoisted lines are passed over one by one, which is in step with the statements if they have one line each.
      have alone := single.1 (by rwa [assemble, first_assembleFrom])
      have next := later level []
      rw [extent_assemble, last_assemble, alone] at next
      simp only [List.length_nil, List.drop_zero, Int.natCast_zero, Int.add_zero] at next
      rw [range_hoisted hoisted, range_hoisted ((kept cursor).trans hoisted), next]
    | false =>
      have unmocked' : mocksDef (assemble cursor line' rest') = false := by rw [whole, mocksDef_congr ends, unmocked.1]
      have body := congrArg Statement.body (statementOf_congr script lines (behind (assemble cursor line rest) rest)
        (behind (assemble cursor line rest) rest') same.opening ends)
      have step := @step_congr script lines _ _ _ _ _ _ _ visible same.opening ends (same.later cursor) here.behind.nonneg
      rw [range_statement hoisted here.nonneg visible unmocked.1,
        range_statement ((kept cursor).trans hoisted) here.nonneg visible' unmocked', whole]
      dsimp only [behind, LogicalStatement.extent] at body step later ⊢
      rw [body, step]
      refine bind_congr fun _ => bind_congr fun step => ?_
      rw [later, same.opening.sameToMark.isDocstring]

/-- Two scripts that differ in nothing but comments without directives and blank lines become the same. Nothing of a
script may be emitted as it stands, as a mocked function is, and no statement may be hoisted in part. -/
theorem comments_without_influence {lines lines' : List Text} (differ : DifferInComments lines lines')
    (unmocked : ∀ source ∈ logicalStatements lines, mocksDef source = false) {hoisted : List Int}
    (single : ∀ source ∈ logicalStatements lines, hoisted.contains source.first = true → source.before = [])
    (indent : IndentConfig) (callLimit : Int) :
    wholeScript ⟨lines', indent, callLimit, hoisted⟩ = wholeScript ⟨lines, indent, callLimit, hoisted⟩ := by
  have same := @range_congr ⟨lines, indent, callLimit, hoisted⟩ lines' lines lines' 0 0 0 [] differ.forall₂ differ
    (linesFrom_start lines) unmocked single
  rw [wholeScript, wholeScript]
  dsimp only at same ⊢
  rw [same]

def commentedLines : List Text :=
  ["if ready:  # it's (".toList, [], "    total = (1 +".toList, "      2)  # two".toList, "    print(total)".toList]

def recommentedLines : List Text :=
  ["if ready:  # \"\"\" [".toList, "# else:".toList, "    total = (1 +".toList, "      2)  # :\\".toList,
    "    print(total)".toList]

theorem comments_without_influence_sample :
    DifferInComments commentedLines recommentedLines ∧ (wholeScript ⟨commentedLines, .standard, 100, []⟩).isOk = true ∧
      wholeScript ⟨recommentedLines, .standard, 100, []⟩ = wholeScript ⟨commentedLines, .standard, 100, []⟩ := by
  have header : (assemble 0 "if ready:  # it's (".toList commentedLines.tail).MayEnd "if ready:  # \"\"\" [".toList := by
    refine ⟨@Recommented.other _ "if ready:  ".toList " it's (".toList " \"\"\" [".toList ?_ ?_ ?_, ?_, ?_, ?_⟩
    all_goals decide +kernel
  have sum : (assemble 0 "    total = (1 +".toList (commentedLines.drop 3)).MayEnd "      2)  # :\\".toList := by
    refine ⟨@Recommented.other _ "      2)  ".toList " two".toList " :\\".toList ?_ ?_ ?_, ?_, ?_, ?_⟩
    all_goals decide +kernel
  have call : (assemble 0 "    print(total)".toList []).MayEnd "    print(total)".toList :=
    ⟨.same _, fun other => absurd rfl other, fun other => absurd rfl other, fun other => absurd rfl other⟩
  have differ : DifferInComments commentedLines recommentedLines :=
    .statement (by decide +kernel) header <| .blank (by decide +kernel) (by decide +kernel) <|
      .statement (by decide +kernel) sum <| .statement (by decide +kernel) call .nil
  have unmocked : ∀ source ∈ logicalStatements commentedLines, mocksDef source = false := by decide +kernel
  exact ⟨differ, by decide +kernel, comments_without_influence differ unmocked (by simp) .standard 100⟩

end Instrument

end LineProbe
