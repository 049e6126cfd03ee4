import LineProbe.Instrument.Program
import LineProbe.Proofs.Pieces

/-!
# Line maps and the text of a program

The map of an instrumented program has an entry for each generated line outside the support code.
-/

namespace LineProbe

open Text

variable {program : Program} {pieces : List Piece}

namespace Instrument

/-! ## Lines with an entry -/

/-- The map has an entry for the lines of the text outside the support code, but for the empty line at
the end. -/
def Program.Aligned (program : Program) : Prop :=
  ∀ index : Int, program.lineMap.contains index = true ↔
    0 ≤ index ∧ index < program.future.length ∨
      program.preambleLength ≤ index ∧ index < (splitNewlines program.text).length - 1

theorem length_lines (program : Program) : program.lines.length = program.preambleLength + program.body.length := by
  simp only [Program.lines, Program.preambleLength, List.length_append, List.length_map]

theorem lineMap_contains_iff (program : Program) (index : Int) :
    program.lineMap.contains index ↔
      ∃ line, program.lines[index.toNat]? = some line ∧ line.origin.isSome ∧ 0 ≤ index := by
  simp only [LineMap.contains, LineMap.get?, Option.isSome_map, List.find?_isSome, Program.lineMap]
  constructor
  · rintro ⟨entry, mem, same⟩
    obtain ⟨⟨line, position⟩, located, found⟩ := List.mem_filterMap.1 mem
    obtain ⟨origin, known, rfl⟩ := Option.map_eq_some_iff.1 found
    obtain rfl : (position : Int) = index := by simpa using same
    exact ⟨line, List.mk_mem_zipIdx_iff_getElem?.1 located, Option.isSome_of_eq_some known, by omega⟩
  · rintro ⟨line, located, known, nonneg⟩
    obtain ⟨origin, known⟩ := Option.isSome_iff_exists.1 known
    refine ⟨(index, origin), List.mem_filterMap.2 ⟨(line, index.toNat), ?_, ?_⟩, by simp⟩
    · exact List.mk_mem_zipIdx_iff_getElem?.2 located
    · simp [known, Int.toNat_of_nonneg nonneg]

theorem lineMap_contains_iff_of_origins (future : ∀ line ∈ program.future, line.origin.isSome)
    (body : ∀ line ∈ program.body, line.origin.isSome) (index : Int) :
    program.lineMap.contains index ↔
      0 ≤ index ∧ index < program.future.length ∨
        program.preambleLength ≤ index ∧ index < program.lines.length := by
  rw [lineMap_contains_iff]
  constructor
  · rintro ⟨line, located, known, nonneg⟩
    have bound := (List.getElem?_eq_some_iff.1 located).1
    by_cases inFuture : index < program.future.length
    · exact .inl ⟨nonneg, inFuture⟩
    · right
      refine ⟨?_, by omega⟩
      by_contra inSupport
      have inPreamble : index.toNat - program.future.length < Probe.preamble.length := by
        simp only [Program.preambleLength] at inSupport
        omega
      rw [Program.lines, List.append_assoc, List.getElem?_append_right (by omega),
        List.getElem?_append_left (by simpa using inPreamble), List.getElem?_map] at located
      obtain ⟨text, -, rfl⟩ := Option.map_eq_some_iff.1 located
      cases known
  · rintro (⟨nonneg, inFuture⟩ | ⟨behind, within⟩)
    · have bound : index.toNat < program.future.length := by omega
      refine ⟨program.future[index.toNat], ?_, future _ (List.getElem_mem bound), nonneg⟩
      rw [Program.lines, List.append_assoc, List.getElem?_append_left bound, List.getElem?_eq_getElem bound]
    · have length := length_lines program
      have bound : index.toNat - program.preambleLength < program.body.length := by omega
      refine ⟨program.body[index.toNat - program.preambleLength], ?_, body _ (List.getElem_mem bound), by omega⟩
      rw [Program.lines, List.getElem?_append_right (by simp [Program.preambleLength] at behind ⊢; omega)]
      rw [← List.getElem?_eq_getElem bound]
      simp [Program.preambleLength]

/-! ## Lines of the text -/

theorem splitNewlines_text (program : Program) :
    splitNewlines program.text = (program.lines.map GeneratedLine.text).flatMap splitNewlines ++ [[]] := by
  obtain ⟨line, rest, same⟩ : ∃ line rest, program.lines.map GeneratedLine.text = line :: rest := by
    refine List.exists_cons_of_ne_nil fun empty => ?_
    have length := congrArg List.length empty
    have support : 0 < Probe.preamble.length := by
      rw [Probe.preamble, List.length_map]
      decide
    rw [List.length_map, length_lines, Program.preambleLength, List.length_nil] at length
    omega
  rw [Program.text, same, splitNewlines, splitAtChar_append, ← splitNewlines, splitNewlines_joinLines]
  rfl

theorem length_splitNewlines_text (program : Program) :
    (splitNewlines program.text).length =
      ((program.lines.map GeneratedLine.text).flatMap splitNewlines).length + 1 := by
  rw [splitNewlines_text, List.length_append]
  rfl

theorem length_flatMap_splitNewlines_le (texts : List Text) :
    texts.length ≤ (texts.flatMap splitNewlines).length ∧
      ((texts.flatMap splitNewlines).length = texts.length ↔ ∀ text ∈ texts, '\n' ∉ text) := by
  induction texts with
  | nil => simp
  | cons text rest ih =>
    have pos : 0 < (splitNewlines text).length := List.length_pos_iff.2 (splitAtChar_ne_nil _ _)
    have one : (splitNewlines text).length = 1 ↔ '\n' ∉ text := length_splitAtChar_eq_one_iff
    simp only [List.flatMap_cons, List.length_append, List.length_cons, List.forall_mem_cons, ← ih.2, ← one]
    omega

theorem aligned_iff_of_origins (future : ∀ line ∈ program.future, line.origin.isSome)
    (body : ∀ line ∈ program.body, line.origin.isSome) :
    program.Aligned ↔ ∀ line ∈ program.lines, '\n' ∉ line.text := by
  have lines := length_flatMap_splitNewlines_le (program.lines.map GeneratedLine.text)
  rw [List.length_map, List.forall_mem_map] at lines
  have total := length_splitNewlines_text program
  have length := length_lines program
  rw [← lines.2]
  constructor
  · intro aligned
    -- The line behind the last generated one would have an entry only if the text had more lines.
    have past := aligned program.lines.length
    rw [lineMap_contains_iff_of_origins future body] at past
    have before : program.future.length ≤ program.preambleLength := by simp [Program.preambleLength]
    omega
  · intro same index
    rw [lineMap_contains_iff_of_origins future body, total, same]
    simp

end Instrument

/-! ## Pieces on one line -/

theorem newline_not_mem_codeLines (h : line ∈ codeLines text first last) : '\n' ∉ line.text := by
  obtain ⟨⟨part, offset⟩, located, rfl⟩ := List.mem_map.1 h
  exact not_mem_of_mem_splitAtChar (List.fst_mem_of_mem_zipIdx located)

/-- A loop head is on one line. -/
def Piece.Unbroken : Piece → Prop
  | .loopHead _ head _ _ => '\n' ∉ head
  | _ => True

instance (piece : Piece) : Decidable piece.Unbroken :=
  match piece with
  | .loopHead _ head _ _ => inferInstanceAs (Decidable ('\n' ∉ head))
  | .code .. | .header .. | .binding .. | .injected .. => inferInstanceAs (Decidable True)

def Piece.Regular (config : IndentConfig) (piece : Piece) : Prop :=
  (∀ line ∈ piece.lines config, '\n' ∉ line.text) ↔ piece.Unbroken

theorem Piece.Plain.regular {piece : Piece} (h : piece.Plain) : piece.Regular config := by
  cases piece with
  | code | header | binding => exact ⟨fun _ => trivial, fun _ _ => newline_not_mem_codeLines⟩
  | loopHead indentation head temp line =>
    have indented : '\n' ∉ indentation := h
    simp [Piece.Regular, Piece.lines, Piece.Unbroken, indented, (plain_tempName temp).newline_not_mem]
  | injected level what origin =>
    simp [Piece.Regular, Piece.lines, Piece.Unbroken, (plain_render config level).newline_not_mem,
      Injection.Plain.newline_not_mem h]

theorem regular_callMock (h : '\n' ∉ arguments) :
    Piece.Regular config (.injected level (.callMock temp arguments) origin) := by
  have call : '\n' ∉ temp.name ++ "(".toList ++ arguments ++ ")".toList := by
    simp only [List.mem_append, (plain_tempName temp).newline_not_mem, h, not_or]
    decide
  have whole : '\n' ∉ config.render level ++ Injection.text origin (.callMock temp arguments) := by
    rw [List.mem_append, not_or]
    exact ⟨(plain_render config level).newline_not_mem, call⟩
  exact ⟨fun _ => trivial, fun _ => List.forall_mem_singleton.2 whole⟩

namespace Instrument

open Construct

variable {pass : Pass}

/-! ## Mocks -/

theorem final_mem_of_statementIn (h : statementIn script first line rest = .ok source) :
    source.final ∈ line :: rest ∨ source.final ∈ script := by
  unfold statementIn LogicalStatement.within? at h
  split at h
  · next found =>
    cases h
    split at found
    · cases found
      exact .inl (final_assembleFrom_mem ..)
    · split at found
      · cases found
      · next last before lines =>
        cases found
        right
        have mem : last ∈ linesBetween script (assemble first line rest).first
            ((assemble first line rest).last + 1) := by
          rw [← List.mem_reverse, lines]
          simp
        exact List.mem_of_mem_take (List.mem_of_mem_drop mem)
  · cases h

/-! ## Whole runs -/

theorem regular_of_plain (h : ∀ piece ∈ pieces, piece.Plain) : ∀ piece ∈ pieces, piece.Regular config :=
  fun piece mem => (h piece mem).regular

theorem regular_mockedPieces (guarded : Guards st (st.level + 1) pass guards pass') (arguments : '\n' ∉ mock.arguments)
    (h : ∀ piece ∈ body, piece.Regular config) :
    ∀ piece ∈ mockedPieces config source st block mock shadow guards body, piece.Regular config := by
  have written : ∀ piece ∈ writtenBody config st block, piece.Plain := by
    unfold writtenBody
    split
    · intro piece mem
      obtain ⟨line, -, rfl⟩ := List.mem_map.1 mem
      exact trivial
    · simp only [List.forall_mem_singleton]
      exact trivial
  have header (text : Text) : Piece.Regular config (.header text st.first st.last) := Piece.Plain.regular trivial
  simp only [mockedPieces, List.forall_mem_append, List.forall_mem_cons, List.cons_append]
  exact ⟨header _, ⟨⟨regular_of_plain guarded.plain, regular_of_plain written⟩, header _, h⟩,
    regular_callMock arguments, by simp⟩

theorem plain_mockedPrologue (mocks : MocksDef st mock) : ∀ piece ∈ mockedPrologue st mock, piece.Plain :=
  List.forall_mem_append.2 ⟨plain_parameters (plain_params mocks.construct), plain_interior _ _⟩

theorem newline_not_mem_arguments (found : statementIn script.lines cursor line rest = .ok source)
    (same : st = statementOf script source line (behind source rest)) (mocks : MocksDef st mock)
    (whole : ∀ line ∈ script.lines, '\n' ∉ line) (free : ∀ text ∈ line :: rest, '\n' ∉ text) :
    '\n' ∉ mock.arguments := by
  intro mem
  have given : (Directives.ofComment source.comment).mock = some mock.arguments := by
    rw [← mocks.mock, same]
    rfl
  have final := ((Directives.mock_within given).trans (comment_within source)).subset mem
  rcases final_mem_of_statementIn found with inRange | inScript
  · exact free _ inRange final
  · exact whole _ inScript final

theorem Runs.regular (run : Runs script floor level pending cursor lines pass pieces pass')
    (whole : ∀ line ∈ script.lines, '\n' ∉ line) (free : ∀ line ∈ lines, '\n' ∉ line)
    (h : ∀ piece ∈ pending, piece.Plain) : ∀ piece ∈ pieces, piece.Regular script.indent := by
  induction run with
  | done => exact regular_of_plain h
  | hoisted _ _ ih =>
    rw [List.forall_mem_cons] at free
    exact List.forall_mem_append.2 ⟨regular_of_plain h, ih free.2 (by simp)⟩
  | blank _ _ _ ih =>
    rw [List.forall_mem_cons] at free
    simp only [List.forall_mem_append]
    exact ⟨⟨regular_of_plain h, regular_of_plain (plain_blankPieces _ _ _ _ _)⟩, ih free.2 (by simp)⟩
  | statement _ _ found _ stepped _ ih =>
    rw [List.forall_mem_cons] at free
    obtain ⟨own, prologue⟩ := stepped.plainPieces fun mem => free.1 ((List.takeWhile_prefix _).subset mem)
    refine List.forall_mem_append.2 ⟨forall_mem_placePrologue _ (regular_of_plain h) (regular_of_plain own),
      ih ?_ prologue⟩
    exact fun line mem => free.2 line (List.mem_of_mem_drop mem)
  | mocked _ _ found same mocks _ cut guarded _ _ _ ihInner ih =>
    have arguments := newline_not_mem_arguments found same mocks whole free
    rw [List.forall_mem_cons] at free
    have body := ihInner (fun line mem => free.2 line (List.mem_of_mem_drop (List.mem_of_mem_take (cut ▸ mem))))
      (plain_mockedPrologue mocks)
    refine List.forall_mem_append.2
      ⟨forall_mem_placePrologue _ (regular_of_plain h) (regular_mockedPieces guarded arguments body), ?_⟩
    exact ih (fun line mem => free.2 line (List.mem_of_mem_drop (List.mem_of_mem_drop mem))) (by simp)
  | mockedEmpty _ _ found same mocks _ _ guarded _ _ ih =>
    have arguments := newline_not_mem_arguments found same mocks whole free
    rw [List.forall_mem_cons] at free
    refine List.forall_mem_append.2 ⟨forall_mem_placePrologue _ (regular_of_plain h) (regular_mockedPieces guarded arguments
      (regular_of_plain (plain_orPass (plain_mockedPrologue mocks)))), ?_⟩
    exact ih (fun line mem => free.2 line (List.mem_of_mem_drop (List.mem_of_mem_drop mem))) (by simp)

/-! ## Instrumented programs -/

def Script.ofSource (source : Text) (indent : IndentConfig) (callLimit : Int) : Script :=
  ⟨splitLines source, indent, callLimit, (futureImports (splitLines source)).map Int.ofNat⟩

theorem instrument_ok {source : Text} (h : instrument source indent callLimit = .ok program) :
    ∃ pieces pass, wholeScript (.ofSource source indent callLimit) = .ok (pieces, pass) ∧
      program.future = (futureImports (splitLines source)).map
        (fun index => ⟨(splitLines source).getD index [], some (index : Int)⟩) ∧
      program.body = renderPieces indent pieces := by
  unfold instrument at h
  dsimp only at h
  cases run : wholeScript (.ofSource source indent callLimit) with
  | error cause =>
    rw [← Script.ofSource, run] at h
    cases h
  | ok found =>
    rw [← Script.ofSource, run] at h
    cases h
    exact ⟨_, _, rfl, rfl, rfl⟩

theorem origin_isSome_of_mem_renderPieces (h : line ∈ renderPieces config pieces) : line.origin.isSome := by
  have code {text : Text} {first last : Int} (mem : line ∈ codeLines text first last) :
      line.origin.isSome := by
    obtain ⟨part, -, rfl⟩ := List.mem_map.1 mem
    rfl
  obtain ⟨piece, -, mem⟩ := List.mem_flatMap.1 h
  cases piece with
  | code | header | binding => exact code mem
  | loopHead | injected =>
    rw [List.mem_singleton.1 mem]
    rfl

theorem newline_not_mem_literal (h : '\n' ∉ chars) : '\n' ∉ (String.ofList chars).toList := by
  rwa [String.toList_ofList]

theorem newline_not_mem_preamble : ∀ text ∈ Probe.preamble, '\n' ∉ text := by
  unfold Probe.preamble
  simp only [List.forall_mem_map, List.forall_mem_cons]
  repeat' apply And.intro
  all_goals first | exact newline_not_mem_literal (by decide) | simp

theorem instrument_aligned_iff {source : Text} (h : instrument source indent callLimit = .ok program) :
    program.Aligned ↔ ∀ line ∈ program.body, '\n' ∉ line.text := by
  obtain ⟨pieces, pass, -, future, body⟩ := instrument_ok h
  have origins : ∀ line ∈ program.future, line.origin.isSome := by
    rw [future, List.forall_mem_map]
    exact fun _ _ => rfl
  have hoisted : ∀ line ∈ program.future, '\n' ∉ line.text := by
    rw [future, List.forall_mem_map]
    intro index _
    rw [List.getD_eq_getElem?_getD]
    cases located : (splitLines source)[index]? with
    | none => simp
    | some line => exact newline_not_mem_splitLines (List.mem_of_getElem? located)
  rw [aligned_iff_of_origins origins fun line mem => origin_isSome_of_mem_renderPieces (body ▸ mem)]
  simp only [Program.lines, List.forall_mem_append, List.forall_mem_map]
  exact ⟨And.right, fun free => ⟨⟨hoisted, newline_not_mem_preamble⟩, free⟩⟩

/-- The map of an instrumented program is aligned with its text if and only if no loop head spans several
lines. -/
theorem aligned_iff_loopHeads_unbroken {source : Text} {indent : IndentConfig} {callLimit : Int}
    {program : Program} (h : instrument source indent callLimit = .ok program) :
    ∃ pieces pass, wholeScript (.ofSource source indent callLimit) = .ok (pieces, pass) ∧
      program.body = renderPieces indent pieces ∧
      (program.Aligned ↔ ∀ piece ∈ pieces, piece.Unbroken) := by
  obtain ⟨pieces, pass, run, -, body⟩ := instrument_ok h
  have free : ∀ line ∈ splitLines source, '\n' ∉ line := fun _ => newline_not_mem_splitLines
  have regular := (range_ok run).regular free free (by simp)
  refine ⟨pieces, pass, run, body, ?_⟩
  rw [instrument_aligned_iff h, body, renderPieces, List.forall_mem_flatMap]
  exact forall₂_congr regular

/-- A value that spans several lines leaves the map aligned. -/
theorem aligned_of_broken_value :
    ∃ program, instrument "for a in (xs +\n    ys):\n    b = [a,\n         a]" .standard 100 = .ok program ∧
      program.Aligned := by
  have runs : (instrument "for a in (xs +\n    ys):\n    b = [a,\n         a]" .standard 100).isOk = true := by
    decide +kernel
  obtain ⟨program, h⟩ := exists_ok runs
  refine ⟨program, h, ?_⟩
  obtain ⟨pieces, pass, run, -, aligned⟩ := aligned_iff_loopHeads_unbroken h
  have unbroken : ((wholeScript (.ofSource "for a in (xs +\n    ys):\n    b = [a,\n         a]" .standard
      100)).toOption.all fun found => decide (∀ piece ∈ found.1, piece.Unbroken)) = true := by
    decide +kernel
  rw [run] at unbroken
  exact aligned.2 (of_decide_eq_true unbroken)

/-- The names of a loop that span two lines shift all lines behind them: line 41, the last one of the
text, has no entry. -/
theorem not_aligned_of_broken_names :
    ∃ program, instrument "for (a,\n     b) in xs:\n    pass" .standard 100 = .ok program ∧
      ¬ program.Aligned := by
  have runs : (instrument "for (a,\n     b) in xs:\n    pass" .standard 100).isOk = true := by
    decide +kernel
  obtain ⟨program, h⟩ := exists_ok runs
  refine ⟨program, h, fun aligned => ?_⟩
  have broken : ((instrument "for (a,\n     b) in xs:\n    pass" .standard 100).toOption.all fun program =>
      decide (∃ line ∈ program.body, '\n' ∈ line.text)) = true := by
    decide +kernel
  rw [h] at broken
  obtain ⟨line, mem, newline⟩ := of_decide_eq_true broken
  exact (instrument_aligned_iff h).1 aligned line mem newline

end Instrument

end LineProbe
