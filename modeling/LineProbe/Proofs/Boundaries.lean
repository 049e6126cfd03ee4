import LineProbe.Proofs.Loops
import LineProbe.Proofs.OwnCode
import LineProbe.Proofs.Pieces

/-!
# Where the statements of an instrumented script begin

Each piece of an instrumented script is a whole text, if the statements of the script are sound: the lines that are
put in are, and what is cut from the script and put together stands as a statement again.
-/

namespace LineProbe

open Text

/-! ## Texts of pieces -/

theorem texts_codeLines (text : Text) (first last : Int) :
    (codeLines text first last).map GeneratedLine.text = splitNewlines text := by
  rw [codeLines, List.map_map]
  exact List.zipIdx_map_fst 0 (splitNewlines text)

theorem splitNewlines_texts (config : IndentConfig) (piece : Piece) :
    ((piece.lines config).map GeneratedLine.text).flatMap splitNewlines = splitNewlines (piece.text config) := by
  have split (text : Text) (first last : Int) :
      ((codeLines text first last).map GeneratedLine.text).flatMap splitNewlines = splitNewlines text := by
    rw [texts_codeLines]
    exact flatMap_splitNewlines fun line => not_mem_of_mem_splitAtChar
  cases piece with
  | code | header => exact split ..
  | binding indentation temp value first last =>
    rw [Piece.lines, split, Piece.text]
    simp
  | loopHead | injected => simp [Piece.lines, Piece.text]

theorem Whole.oneStatement_singleton (h : Whole text) (ends : endsWithChar text '\\' = false) :
    OneStatement [text] := by
  obtain ⟨blanks, c, rest, whole, blank, notBlank, notComment⟩ := h.visible
  refine ⟨by simp, ?_, ?_⟩
  · rintro _ ⟨⟩
    rw [isBlankLine, whole, trimLeft_append_of_blank fun d mem => (blank d mem).1,
      trimLeft_of_head (by simpa using notBlank)]
    simpa using notComment
  · intro first line others more same
    cases same
    have done := h.done
    rw [Reader.keepsOpen, Reader.mode_run, Reader.depth_run] at done
    simp only [Reader.start, Bool.or_eq_false_iff] at done
    have stops : continues (scan .closed text) (0 + (scan .closed text).delta) text = false := by
      rw [continues, ends, Bool.and_false, Bool.or_false, Bool.or_eq_false_iff]
      exact done.1
    cases more with
    | nil => rfl
    | cons next more =>
      rw [List.nil_append, assemble, assembleFrom]
      dsimp only
      rw [stops]
      rfl

theorem Piece.oneStatement {piece : Piece} (whole : Whole (piece.text config)) (plain : piece.Plain) :
    OneStatement ((piece.lines config).map GeneratedLine.text) := by
  cases piece with
  | code | header =>
    rw [lines, texts_codeLines]
    exact whole.oneStatement
  | binding indentation temp value first last =>
    rw [lines, texts_codeLines, List.append_assoc, List.append_assoc, ← List.append_assoc temp.name]
    exact whole.oneStatement
  | loopHead indentation head temp line =>
    have same : (lines config (.loopHead indentation head temp line)).map GeneratedLine.text =
        [indentation ++ (head ++ temp.name ++ [':'])] := by simp [lines]
    rw [same]
    refine whole.oneStatement_singleton ?_
    rw [text, endsWithChar_append _ (by simp), endsWithChar_append _ (by simp)]
    rfl
  | injected level what origin =>
    refine whole.oneStatement_singleton ?_
    rw [text, endsWithChar_append _ (Injection.Plain.starts plain origin).ne_nil]
    exact (Injection.Plain.standing plain origin).ends

namespace Instrument

open Construct

variable {pass : Pass}

/-! ## Own code -/

theorem OwnHead.whole {block : List Piece}
    (h : OwnHead st construct block) (indented : ∀ d ∈ st.indentation, isBlankChar d ∧ d ≠ '\n')
    (standing : Standing st.body)
    (loop : ∀ head iterable, construct = .forHeader head iterable →
      forHeader? st.body = some (.forHeader head iterable) ∧ ¬ BreaksOff st.body) :
    ∀ piece ∈ block, Whole (piece.text config) := by
  cases h with
  | @loop head iterable temp =>
    obtain ⟨found, unbroken⟩ := loop _ _ rfl
    obtain ⟨part, body, shape, rfl, rfl⟩ := forHeader?_iff_shape.1 found
    simp only [List.forall_mem_cons, List.not_mem_nil, false_implies, implies_true, and_true]
    exact ⟨(shape.standing_iterable standing unbroken temp).whole indented,
      (shape.standing_head standing temp).whole indented⟩
  | definition | block => exact List.forall_mem_singleton.2 (standing.whole indented)

theorem OwnForm.whole (h : OwnForm config st block) (indented : ∀ d ∈ st.indentation, isBlankChar d ∧ d ≠ '\n')
    (unmocked : st.mock = none) (standing : Standing st.body) (loops : ∀ loop ∈ loopHeaders st.body, ¬ BreaksOff loop) :
    ∀ piece ∈ block, (∃ level what origin, piece = .injected level what origin) ∨ Whole (piece.text config) := by
  induction h with
  | @augmented st target operator valueStart temp construct =>
    cases classify_ok construct with
    | augmented found =>
      obtain ⟨front, value, whole, rfl, quiet⟩ := augmented?_shape found
      have settles := standing.settles
      rw [whole] at settles
      simp only [List.forall_mem_cons, List.not_mem_nil, false_implies, implies_true, and_true]
      refine ⟨.inr ?_, .inl ⟨_, _, _, rfl⟩⟩
      rw [unmocked, Option.getD_none, whole, List.drop_left]
      exact (standing_bracketed temp (settles.behind_quiet quiet).trim.toClosed).whole indented
  | assigned construct assigns =>
    rw [List.forall_mem_singleton, assignedValue, unmocked, List.take_append_drop]
    exact .inr (standing.whole indented)
  | printed construct =>
    cases classify_ok construct with
    | printCall found =>
      rw [List.forall_mem_singleton]
      exact .inr ((standing_splicedBody standing found).whole indented)
  | @returned st value temp construct given =>
    cases classify_ok construct with
    | returning word =>
      obtain ⟨rest, whole, dropped⟩ := returning_shape word
      have settles := standing.settles
      rw [whole] at settles
      simp only [List.forall_mem_cons, List.not_mem_nil, false_implies, implies_true, and_true]
      refine ⟨.inr ?_, .inl ⟨_, _, _, rfl⟩⟩
      rw [unmocked, Option.getD_none, dropped]
      exact (standing_bracketed temp (settles.behind_quiet (by decide)).trim.toClosed).whole indented
  | ended construct empty => exact List.forall_mem_singleton.2 (.inl ⟨_, _, _, rfl⟩)
  | opened construct head =>
    intro piece mem
    refine .inr (head.whole indented standing (fun hd iterable same => ?_) piece mem)
    have found := forHeader?_of_classify (same ▸ construct)
    obtain ⟨part, body, shape, -, -⟩ := forHeader?_iff_shape.1 found
    exact ⟨found, loops _ (by rw [loopHeaders_loop shape]; exact List.mem_singleton_self _)⟩
  | @inline st colon kind front back construct header head body ih =>
    cases classify_ok construct with
    | inlineCompound early last found =>
      obtain ⟨hd, tail, shape, rfl⟩ := inlineCompound?_iff_shape.1 found
      have headers := loopHeaders_inline shape construct
      have bodyOf : (st.inlineBody config hd.length).body = trimLeft tail := by
        rw [Statement.inlineBody, shape.drop]
      have headOf : (st.inlineHead hd.length).body = hd ++ [':'] := shape.take
      rw [List.forall_mem_append]
      constructor
      · intro piece mem
        refine .inr (head.whole indented (headOf ▸ shape.standing_head standing) (fun name iterable same => ?_) piece mem)
        have loop : kind = .forHeader name iterable := by
          rcases inlineConstruct_cases (st.inlineHead hd.length).body kind with kept | block
          · exact kept.symm.trans same
          · cases block.symm.trans same
        rw [loop, headOf] at header
        rw [headOf]
        refine ⟨forHeader?_of_classify header, loops _ ?_⟩
        rw [headers, List.mem_append, List.mem_filter, isLoop, header]
        exact .inl ⟨List.mem_singleton_self _, rfl⟩
      · refine ih (blank_render _ _) unmocked (bodyOf ▸ shape.standing_body standing) ?_
        intro loop mem
        rw [bodyOf] at mem
        exact loops loop (by rw [headers]; exact List.mem_append_right _ mem)
  | ignored construct => exact List.forall_mem_singleton.2 (.inr (standing.whole indented))
  | plain construct simple =>
    rw [List.forall_mem_singleton, plainBody, unmocked]
    exact .inr (standing.whole indented)

/-! ## Pieces of a statement -/

theorem whole_injected (h : Piece.Plain (.injected level what origin)) :
    Whole (Piece.text config (.injected level what origin)) :=
  (Injection.Plain.standing h origin).whole (blank_render config level)

theorem Dispatched.whole (h : Dispatched script st pass step pass')
    (indented : ∀ d ∈ st.indentation, isBlankChar d ∧ d ≠ '\n') (unmocked : st.mock = none)
    (standing : Standing st.body) (loops : ∀ loop ∈ loopHeaders st.body, ¬ BreaksOff loop) :
    (∀ piece ∈ step.pieces, Whole (piece.text script.indent)) ∧
      ∀ piece ∈ step.prologue, Whole (piece.text script.indent) := by
  obtain ⟨form, noOwn⟩ := h.own
  obtain ⟨plain, plainPrologue⟩ := h.plainPieces fun mem => (indented _ mem).2 rfl
  have around {piece : Piece} (plain : piece.Plain) (other : piece.isOwn = false) : Whole (piece.text script.indent) := by
    cases piece with
    | injected level what origin => exact whole_injected plain
    | _ => cases other
  constructor
  · intro piece mem
    cases isOwn : piece.isOwn with
    | false => exact around (plain piece mem) isOwn
    | true =>
      rcases form.whole indented unmocked standing loops piece (List.mem_filter.2 ⟨mem, isOwn⟩) with
        ⟨level, what, origin, rfl⟩ | whole
      · exact whole_injected (plain _ mem)
      · exact whole
  · intro piece mem
    refine around (plainPrologue piece mem) ?_
    by_contra isOwn
    have own := List.mem_filter.2 ⟨mem, by simpa using isOwn⟩
    rw [noOwn] at own
    cases own

theorem standing_swapped (h : Swapped Bracketed false .code code code') (standing : Standing code) :
    Standing code' := by
  obtain ⟨settles, ends, first⟩ := standing
  refine ⟨.of_takes (h.takes rfl (Int.le_refl 0) settles.takes) settles.settled, ?_, ?_⟩
  · rw [← h.endsWithChar (fun _ new => new.enclosed.getLast?) (by decide), ends]
  · exact h.starts (fun _ new => new.enclosed.starts) first

/-- A statement that is found again in its instrumented form: it is sound, has no mock, and its loop headers have
no backslash outside strings. -/
structure Rescannable (source : LogicalStatement) : Prop extends Sound source where
  unmocked : source.directives.mock = none
  loops : ∀ loop ∈ loopHeaders source.body, ∀ place ∈ places loop, place.char ≠ '\\'

theorem Rescannable.standing (visible : isBlankLine line = false) (oneLine : ∀ text ∈ line :: rest, '\n' ∉ text)
    (h : Rescannable (assemble cursor line rest)) : Standing (assemble cursor line rest).body := by
  have starts := starts_body_assemble cursor rest visible
  refine ⟨(h.toSound.assembled visible oneLine).2, ?_, starts⟩
  have ends := h.unjoined
  rwa [← leadingBlanks_append_body_assemble cursor rest visible, endsWithChar_append _ starts.ne_nil] at ends

theorem Stepped.whole (visible : isBlankLine line = false) (oneLine : ∀ text ∈ line :: rest, '\n' ∉ text)
    (source : Rescannable (assemble cursor line rest))
    (h : Stepped script (assemble cursor line rest) (statementOf script (assemble cursor line rest) line after)
      pass step pass') :
    (∀ piece ∈ step.pieces, Whole (piece.text script.indent)) ∧
      ∀ piece ∈ step.prologue, Whole (piece.text script.indent) := by
  have body := body_statementOf script cursor rest after visible
  have standing := source.standing visible oneLine
  have loops (loop : Text) (mem : loop ∈ loopHeaders (assemble cursor line rest).body) : ¬ BreaksOff loop :=
    not_breaksOff (standing_of_mem_loopHeaders standing mem).settles (source.loops loop mem)
  have indented (d : Char) (mem : d ∈ leadingBlanks line) : isBlankChar d ∧ d ≠ '\n' := by
    refine ⟨isBlankChar_of_mem_leadingBlanks mem, ?_⟩
    rintro rfl
    exact oneLine line List.mem_cons_self ((List.takeWhile_prefix _).subset mem)
  cases h with
  | decorator construct =>
    exact ⟨List.forall_mem_singleton.2 (source.toSound.assembled visible oneLine).1, by simp⟩
  | kept construct other free dispatched =>
    exact dispatched.whole indented source.unmocked (body ▸ standing) (body ▸ loops)
  | replaced construct other blocking dispatched =>
    have swapped := substituteBlocking_swapped (assemble cursor line rest).body (assemble cursor line rest).first
      script.callLimit pass.next (closed_mockValue_none source.unmocked)
    refine dispatched.whole indented rfl ?_ ?_
    · rw [Statement.replaced, body]
      exact standing_swapped swapped standing
    · intro loop' mem'
      rw [Statement.replaced, body] at mem'
      obtain ⟨loop, mem, same⟩ := loopHeaders_swapped swapped.operands mem'
      exact not_breaksOff_of_swapped same (loops loop mem)

/-! ## Pieces of a script -/

theorem Walks.whole (walk : Walks script level pending cursor lines pass sources pieces pass')
    (oneLine : ∀ text ∈ lines, '\n' ∉ text) (sound : ∀ source ∈ sources, Rescannable source)
    (opened : ∀ piece ∈ pending, piece.Plain ∧ Whole (piece.text script.indent)) :
    ∀ piece ∈ pieces, piece.Plain ∧ Whole (piece.text script.indent) := by
  induction walk with
  | done => exact opened
  | @blank level pending later cursor line rest sources pass pass' blank walk ih =>
    rw [List.forall_mem_append, List.forall_mem_append]
    refine ⟨⟨opened, fun piece mem => ?_⟩, ih (List.forall_mem_cons.1 oneLine).2 sound (by simp)⟩
    have plain := plain_blankPieces _ _ _ _ _ piece mem
    obtain ⟨level, -, rfl⟩ := List.mem_map.1 mem
    exact ⟨plain, whole_injected plain⟩
  | @statement level pending later cursor line rest source sources step pass between pass' visible found stepped walk ih =>
    subst found
    rw [List.forall_mem_cons] at sound
    obtain ⟨wholePieces, wholePrologue⟩ := stepped.whole visible oneLine sound.1
    obtain ⟨plainPieces, plainPrologue⟩ := stepped.plainPieces fun mem =>
      oneLine line List.mem_cons_self ((List.takeWhile_prefix _).subset mem)
    rw [List.forall_mem_append]
    refine ⟨forall_mem_placePrologue _ opened fun piece mem => ⟨plainPieces piece mem, wholePieces piece mem⟩, ?_⟩
    refine ih (fun text mem => ?_) sound.2 fun piece mem => ⟨plainPrologue piece mem, wholePrologue piece mem⟩
    exact oneLine text (List.mem_cons_of_mem _ (List.mem_of_mem_drop mem))

def pieceTexts (config : IndentConfig) (pieces : List Piece) : List (List Text) :=
  pieces.map fun piece => (piece.lines config).map GeneratedLine.text

theorem flatten_pieceTexts (config : IndentConfig) (pieces : List Piece) :
    (pieceTexts config pieces).flatten = (renderPieces config pieces).map GeneratedLine.text := by
  rw [pieceTexts, renderPieces, List.map_flatMap, List.flatMap_def]

/-- The statements of an instrumented script are its pieces: in its lines, one by one and as they are written,
a statement begins where a piece begins, and nowhere else. -/
theorem statement_starts_of_pieces {script : Script} {pieces : List Piece} {pass : Pass} (unhoisted : script.hoisted = [])
    (oneLine : ∀ line ∈ script.lines, '\n' ∉ line)
    (sound : ∀ source ∈ logicalStatements script.lines, Rescannable source)
    (run : wholeScript script = .ok (pieces, pass)) :
    let lines := (renderPieces script.indent pieces).map GeneratedLine.text
    statementStarts lines 0 lines.length = .ok (startsFrom 0 (pieceTexts script.indent pieces)) ∧
      statementStarts (lines.flatMap splitNewlines) 0 (lines.flatMap splitNewlines).length =
        .ok (startsFrom 0 ((pieceTexts script.indent pieces).map (·.flatMap splitNewlines))) := by
  have unmocked (source : LogicalStatement) (mem : source ∈ logicalStatements script.lines) : mocksDef source = false := by
    unfold mocksDef
    split
    · rw [(sound source mem).unmocked]
      rfl
    · rfl
  have whole := (wholeScript_walks run unhoisted unmocked).whole oneLine sound (by simp)
  have written : ((renderPieces script.indent pieces).map GeneratedLine.text).flatMap splitNewlines =
      ((pieceTexts script.indent pieces).map (·.flatMap splitNewlines)).flatten := by
    rw [← flatten_pieceTexts, List.flatten_eq_flatMap, List.flatMap_assoc, List.flatMap_def]
    rfl
  dsimp only
  rw [written, ← flatten_pieceTexts]
  constructor
  · refine statementStarts_flatten fun block mem => ?_
    obtain ⟨piece, known, rfl⟩ := List.mem_map.1 mem
    exact Piece.oneStatement (whole piece known).2 (whole piece known).1
  · refine statementStarts_flatten fun block mem => ?_
    obtain ⟨texts, known, rfl⟩ := List.mem_map.1 mem
    obtain ⟨piece, found, rfl⟩ := List.mem_map.1 known
    rw [splitNewlines_texts]
    exact (whole piece found).2.oneStatement

instance (source : LogicalStatement) : Decidable (Rescannable source) :=
  decidable_of_iff
    ((((∀ n ≤ source.code.length, 0 ≤ Mode.code.bracketDelta (source.code.take n)) ∧
      Mode.code.bracketDelta source.code = 0 ∧ source.carryOut = .closed ∧ endsWithChar source.code '\\' = false) ∧
      source.directives.mock = none) ∧ ∀ loop ∈ loopHeaders source.body, ∀ place ∈ places loop, place.char ≠ '\\')
    ⟨fun h => ⟨⟨h.1.1.1, h.1.1.2.1, h.1.1.2.2.1, h.1.1.2.2.2⟩, h.1.2, h.2⟩,
      fun h => ⟨⟨⟨h.balanced, h.closed, h.ended, h.unjoined⟩, h.unmocked⟩, h.loops⟩⟩

def boundaryScript : Script where
  lines := List.map String.toList
    ["@cached  # kept \\", "def f(a):", "    for b in input('n'):", "        print(a,", "              '(')", "    a += \\",
      "        1", "    return a", "for c in 'ab': x = f(c)"]
  indent := .standard
  callLimit := 100
  hoisted := []

theorem statement_starts_of_pieces_sample :
    (∀ source ∈ logicalStatements boundaryScript.lines, Rescannable source) ∧
      ∃ pieces pass, wholeScript boundaryScript = .ok (pieces, pass) ∧
        statementStarts ((renderPieces boundaryScript.indent pieces).map GeneratedLine.text) 0
            ((renderPieces boundaryScript.indent pieces).map GeneratedLine.text).length =
          .ok (startsFrom 0 (pieceTexts boundaryScript.indent pieces)) := by
  have oneLine : ∀ line ∈ boundaryScript.lines, '\n' ∉ line := by
    decide +kernel
  have sound : ∀ source ∈ logicalStatements boundaryScript.lines, Rescannable source := by
    decide +kernel
  have runs : (wholeScript boundaryScript).isOk = true := by
    decide +kernel
  obtain ⟨⟨pieces, pass⟩, run⟩ := exists_ok runs
  exact ⟨sound, pieces, pass, run, (statement_starts_of_pieces rfl oneLine sound run).1⟩

end Instrument

end LineProbe
