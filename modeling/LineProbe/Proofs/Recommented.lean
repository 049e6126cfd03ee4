import LineProbe.Proofs.Range
import LineProbe.Proofs.Rescan
import LineProbe.Proofs.Search

/-!
# Other comments

The text of a comment has no part in how a line is read or where a statement ends: what stands before the mark
decides, and that the mark is there.
-/

namespace LineProbe

open Text

/-! ## Lines that agree up to a mark -/

inductive SameToMark : Text → Text → Prop where
  | same (line : Text) : SameToMark line line
  | mark (code comment comment' : Text) : SameToMark (code ++ '#' :: comment) (code ++ '#' :: comment')

namespace SameToMark

theorem takeWhile (h : SameToMark line line') (stops : p '#' = false) : line'.takeWhile p = line.takeWhile p := by
  cases h with
  | same => rfl
  | mark code comment comment' => simp [List.takeWhile_append, stops]

theorem dropWhile (h : SameToMark line line') (stops : p '#' = false) :
    SameToMark (line.dropWhile p) (line'.dropWhile p) := by
  cases h with
  | same => exact .same _
  | mark code comment comment' =>
    have kept (comment : Text) : (code ++ '#' :: comment).dropWhile p = code.dropWhile p ++ '#' :: comment := by
      rw [List.dropWhile_append]
      split
      · next empty => rw [List.dropWhile_cons_of_neg (by simp [stops]), List.isEmpty_iff.1 empty, List.nil_append]
      · rfl
    rw [kept, kept]
    exact .mark _ _ _

theorem trimLeft (h : SameToMark line line') : SameToMark (trimLeft line) (Text.trimLeft line') :=
  h.dropWhile (by decide)

theorem trimRight (h : SameToMark line line') : SameToMark (trimRight line) (Text.trimRight line') := by
  cases h with
  | same => exact .same _
  | mark code comment comment' =>
    rw [trimRight_append_cons _ _ (by decide), trimRight_append_cons _ _ (by decide)]
    exact .mark _ _ _

theorem trim (h : SameToMark line line') : SameToMark (trim line) (Text.trim line') :=
  h.trimLeft.trimRight

theorem head? (h : SameToMark line line') : line'.head? = line.head? := by
  cases h with
  | same => rfl
  | mark code => cases code <;> rfl

theorem isBlankLine (h : SameToMark line line') : isBlankLine line' = LineProbe.isBlankLine line := by
  have same := h.trimLeft.head?
  unfold LineProbe.isBlankLine
  cases left : Text.trimLeft line <;> cases left' : Text.trimLeft line' <;> simp_all

theorem leadingBlanks (h : SameToMark line line') : leadingBlanks line' = Text.leadingBlanks line :=
  h.takeWhile (by decide)

theorem measure (h : SameToMark line line') (config : IndentConfig) : config.measure line' = config.measure line := by
  have stops : ('#' == config.char) = false := by
    unfold IndentConfig.char
    split <;> decide
  rw [IndentConfig.measure, IndentConfig.measure, h.takeWhile stops]

theorem firstWord (h : SameToMark line line') : Construct.firstWord line' = Construct.firstWord line := by
  cases h with
  | same => rfl
  | mark code comment comment' =>
    have cut (comment : Text) : nameAtStart (code ++ '#' :: comment) = nameAtStart code :=
      nameAtStart_append _ (by rintro _ ⟨⟩; decide)
    rw [Construct.firstWord, Construct.firstWord, cut, cut]

theorem getElem?_length_takeWhile (h : SameToMark text text') (stops : p '#' = false) :
    text'[(text'.takeWhile p).length]? = text[(text.takeWhile p).length]? := by
  have behind (text : Text) : text[(text.takeWhile p).length]? = (text.dropWhile p).head? := by
    calc text[(text.takeWhile p).length]?
        = (text.takeWhile p ++ text.dropWhile p)[(text.takeWhile p).length]? := by rw [List.takeWhile_append_dropWhile]
      _ = (text.dropWhile p).head? := by
        rw [List.getElem?_append_right (Nat.le_refl _), Nat.sub_self, List.head?_eq_getElem?]
  rw [behind, behind, (h.dropWhile stops).head?]

theorem isDocstring (h : SameToMark line line') : Construct.isDocstring line' = Construct.isDocstring line := by
  have stops : "rRuUbBfF".toList.contains '#' = false := by decide
  unfold Construct.isDocstring
  dsimp only
  rw [h.trimLeft.getElem?_length_takeWhile stops, h.trimLeft.takeWhile stops]

end SameToMark

/-! ## Lines that agree up to a comment -/

inductive Recommented (carry : Carry) : Text → Text → Prop where
  | same (line : Text) : Recommented carry line line
  | other {code comment comment' : Text}
    (starts : carry.mode.commentStart? (code ++ '#' :: comment) = some code.length)
    (oneLine : '\n' ∉ comment) (oneLine' : '\n' ∉ comment') :
    Recommented carry (code ++ '#' :: comment) (code ++ '#' :: comment')

namespace Mode

theorem bracketDelta_comment (oneLine : '\n' ∉ text) : Mode.comment.bracketDelta text = 0 := by
  induction text with
  | nil => rfl
  | cons c rest ih =>
    rw [List.mem_cons, not_or] at oneLine
    simp [bracketDelta, readsCode, next, Ne.symm oneLine.1, ih oneLine.2]

theorem startsComment_of_settled {mode : Mode} (settled : mode.isSettled) : mode.startsComment '#' := by
  cases mode <;> simp_all [isSettled, startsComment]

theorem commentStart?_mark {mode : Mode} {code comment : Text}
    (starts : mode.commentStart? (code ++ '#' :: comment) = some code.length) (comment' : Text) :
    mode.commentStart? (code ++ '#' :: comment') = some code.length := by
  induction code generalizing mode with
  | nil =>
    simp only [List.nil_append, commentStart?, List.length_nil] at starts ⊢
    split at starts
    · next marked => rw [if_pos marked]
    · simp at starts
  | cons c code ih =>
    simp only [List.cons_append, commentStart?, List.length_cons] at starts ⊢
    split at starts
    · simp at starts
    · next unmarked =>
      obtain ⟨index, found, same⟩ := Option.map_eq_some_iff.1 starts
      cases same
      rw [if_neg unmarked, ih found]
      rfl

theorem settled_of_mark {mode : Mode} {code comment : Text}
    (starts : mode.commentStart? (code ++ '#' :: comment) = some code.length) : (mode.run code).isSettled := by
  simpa using (commentStart?_eq_some starts).2

end Mode

theorem scan_comment (starts : carry.mode.commentStart? (code ++ '#' :: comment) = some code.length)
    (oneLine : '\n' ∉ comment) :
    scan carry (code ++ '#' :: comment) = ⟨carry.mode.bracketDelta code, .closed, some code.length⟩ := by
  have settled := Mode.settled_of_mark starts
  have marked := Mode.next_of_startsComment (Mode.startsComment_of_settled settled)
  have unread : (carry.mode.run code).readsCode '#' = false := by
    cases mode : carry.mode.run code <;> simp_all [Mode.isSettled, Mode.readsCode]
  rw [scan, starts, Mode.bracketDelta_append, Mode.bracketDelta, unread, marked, Mode.bracketDelta_comment oneLine,
    Mode.run_append, Mode.run_cons, marked, Mode.run_comment oneLine]
  simp [Mode.carry]

namespace Recommented

theorem sameToMark (h : Recommented carry line line') : SameToMark line line' := by
  cases h with
  | same => exact .same _
  | other => exact .mark _ _ _

theorem scan (h : Recommented carry line line') : scan carry line' = LineProbe.scan carry line := by
  cases h with
  | same => rfl
  | other starts oneLine oneLine' =>
    rw [scan_comment starts oneLine, scan_comment (Mode.commentStart?_mark starts _) oneLine']

theorem continues (h : Recommented carry line line') (depth : Int) :
    continues (LineProbe.scan carry line') depth line' = LineProbe.continues (LineProbe.scan carry line) depth line := by
  cases h with
  | same => rfl
  | other starts oneLine oneLine' =>
    rw [scan_comment starts oneLine, scan_comment (Mode.commentStart?_mark starts _) oneLine']
    rfl

end Recommented

/-! ## Clauses -/

theorem firstTop_comment (oneLine : '\n' ∉ text) : firstTop test previous .comment depth text = none := by
  induction text generalizing previous depth with
  | nil => rfl
  | cons c rest ih =>
    rw [List.mem_cons, not_or] at oneLine
    have still : Mode.comment.next c = .comment := by simp [Mode.next, Ne.symm oneLine.1]
    have unread : Mode.comment.readsCode c = false := by simp [Mode.readsCode, Ne.symm oneLine.1]
    rw [firstTop, unread, still, ih oneLine.2]
    rfl

theorem firstTop_colon_mark (settled : (mode.run code).isSettled) (oneLine : '\n' ∉ comment)
    (oneLine' : '\n' ∉ comment') (previous : Option Char) (depth : Nat) :
    firstTop colonTest previous mode depth (code ++ '#' :: comment') =
      firstTop colonTest previous mode depth (code ++ '#' :: comment) := by
  induction code generalizing mode previous depth with
  | nil =>
    have marked := Mode.next_of_startsComment (Mode.startsComment_of_settled settled)
    rw [Mode.run_nil] at marked
    rw [List.nil_append, List.nil_append, firstTop, firstTop, marked, firstTop_comment oneLine,
      firstTop_comment oneLine']
    rfl
  | cons c code ih =>
    have ahead : colonTest previous (c :: (code ++ '#' :: comment')) =
        colonTest previous (c :: (code ++ '#' :: comment)) := by
      cases code <;> rfl
    rw [List.cons_append, List.cons_append, firstTop, firstTop, ahead, ih settled]

theorem Recommented.isClauseLine (h : Recommented .closed line line') :
    Instrument.isClauseLine line' = Instrument.isClauseLine line := by
  have word := h.sameToMark.trim.firstWord
  cases h with
  | same => rfl
  | @other code comment comment' starts oneLine oneLine' =>
    have cut (comment : Text) : Text.trim (code ++ '#' :: comment) = trimLeft code ++ '#' :: trimRight comment := by
      rw [Text.trim, trimLeft_append_cons _ _ (by decide), trimRight_append_cons _ _ (by decide)]
    have settled : (Mode.code.run (trimLeft code)).isSettled := by
      have quiet := Reader.run_start_quiet fun c (mem : c ∈ leadingBlanks code) =>
        isQuiet_of_isBlankChar (isBlankChar_of_mem_leadingBlanks mem)
      have blanks : Mode.code.run (leadingBlanks code) = .code :=
        (Reader.mode_run .start _).symm.trans (congrArg Reader.mode quiet)
      have whole := Mode.settled_of_mark starts
      rwa [← leadingBlanks_append_trimLeft code, Mode.run_append, Carry.mode, blanks] at whole
    have colon : findColon? (Text.trim (code ++ '#' :: comment')) = findColon? (Text.trim (code ++ '#' :: comment)) := by
      rw [cut, cut, findColon?_eq, findColon?_eq]
      exact firstTop_colon_mark settled (fun mem => oneLine (trimRight_subset _ mem))
        (fun mem => oneLine' (trimRight_subset _ mem)) none 0
    rw [Instrument.isClauseLine, Instrument.isClauseLine, colon, word]

/-! ## Statements -/

theorem assembleFrom_recommented
    (last : Recommented (assembleFrom first carry depth line rest).carryIn
      (assembleFrom first carry depth line rest).final final)
    (ends : rest.drop (assembleFrom first carry depth line rest).before.length = [] → behind = [])
    (whole : (assembleFrom first carry depth line rest).before ++ final :: behind = line' :: rest') :
    assembleFrom first carry depth line' rest' = { assembleFrom first carry depth line rest with final } := by
  -- The lines before the last are the same, so the last one is reached with the same string and the same depth.
  induction rest generalizing first carry depth line line' rest' with
  | nil =>
    -- The lines ran out, maybe inside of brackets, so there must be nothing behind the other last line either.
    rw [ends (by simp)] at whole
    rw [assembleFrom] at last whole ⊢
    cases whole
    rw [assembleFrom, last.scan]
  | cons next rest ih =>
    rw [assembleFrom] at last ends whole ⊢
    dsimp only at last ends whole ⊢
    split at last
    · next goes =>
      rw [if_pos goes] at ends whole ⊢
      obtain ⟨next', more, cut⟩ := List.exists_cons_of_ne_nil
        (show (assembleFrom (first + 1) (scan carry line).carry (depth + (scan carry line).delta) next rest).before ++
          final :: behind ≠ [] by simp)
      rw [List.cons_append, cut] at whole
      cases whole
      rw [assembleFrom, if_pos goes, ih last (by simpa using ends) cut]
    · next stops =>
      rw [if_neg stops] at whole ⊢
      cases whole
      cases behind with
      | nil => rw [assembleFrom, last.scan]
      | cons next' more =>
        rw [assembleFrom]
        dsimp only
        rw [last.continues, last.scan, if_neg stops]

theorem assemble_recommented
    (last : Recommented (assemble first line rest).carryIn (assemble first line rest).final final)
    (ends : rest.drop (assemble first line rest).extent = [] → behind = [])
    (whole : (assemble first line rest).before ++ final :: behind = line' :: rest') :
    assemble first line' rest' = { assemble first line rest with final } :=
  assembleFrom_recommented last (by rwa [extent_assemble] at ends) whole

structure LogicalStatement.MayEnd (source : LogicalStatement) (final : Text) : Prop where
  last : Recommented source.carryIn source.final final
  undecorating : final ≠ source.final → Construct.classify source.body ≠ .ok .decorator
  undirected : final ≠ source.final → source.directives = .none
  undirected' : final ≠ source.final → { source with final }.directives = .none

namespace LogicalStatement.MayEnd

variable {line final : Text}

theorem place (h : (assemble 0 line rest).MayEnd final) (cursor : Int) : (assemble cursor line rest).MayEnd final := by
  rw [assemble, assembleFrom_place cursor]
  exact ⟨h.last, h.undecorating, h.undirected, h.undirected'⟩

theorem directives {source : LogicalStatement} (h : source.MayEnd final) :
    { source with final }.directives = source.directives := by
  by_cases same : final = source.final
  · rw [same]
  · rw [h.undirected' same, h.undirected same]

theorem code {source : LogicalStatement} (h : source.MayEnd final)
    (left : source.carryOut = (scan source.carryIn source.final).carry) : { source with final }.code = source.code := by
  obtain ⟨first, last, before, line, carryIn, carryOut⟩ := source
  have same := h.last
  dsimp only at left same ⊢
  cases same with
  | same => rfl
  | @other code comment comment' starts oneLine oneLine' =>
    rw [scan_comment starts oneLine] at left
    have cut (comment : Text) (starts : carryIn.mode.commentStart? (code ++ '#' :: comment) = some code.length) :
        (stripComment carryIn (code ++ '#' :: comment)).1 = code := by
      rw [stripComment, starts]
      exact List.take_left
    rw [LogicalStatement.code, LogicalStatement.code, finalParts_of_ended left, finalParts_of_ended left,
      cut _ starts, cut _ (Mode.commentStart?_mark starts _)]

theorem text {source : LogicalStatement} (h : source.MayEnd final)
    (decorates : Construct.classify source.body = .ok .decorator) : { source with final }.text = source.text := by
  have same : final = source.final := by
    by_contra other
    exact h.undecorating other decorates
  rw [same]

end LogicalStatement.MayEnd

/-! ## Scripts -/

/-- Scripts that differ in nothing but the text of comments behind statements, and the content of the blank lines
between statements. -/
inductive DifferInComments : List Text → List Text → Prop where
  | nil : DifferInComments [] []
  | blank {line line' : Text} {rest rest' : List Text} (blank : isBlankLine line = true)
    (blank' : isBlankLine line' = true) (later : DifferInComments rest rest') :
    DifferInComments (line :: rest) (line' :: rest')
  | statement {line final : Text} {rest behind : List Text} (visible : isBlankLine line = false)
    (ends : (assemble 0 line rest).MayEnd final)
    (later : DifferInComments (rest.drop (assemble 0 line rest).extent) behind) :
    DifferInComments (line :: rest) ((assemble 0 line rest).before ++ final :: behind)

structure Reworded (line : Text) (rest : List Text) (line' : Text) (rest' : List Text) : Prop where
  opening : Recommented .closed line line'
  ends : ∃ final, ∀ cursor, (assemble cursor line rest).MayEnd final ∧
    assemble cursor line' rest' = { assemble cursor line rest with final }
  later : ∀ cursor, DifferInComments (rest.drop (assemble cursor line rest).extent)
    (rest'.drop (assemble cursor line rest).extent)

theorem recommented_opening (last : Recommented (assemble 0 line rest).carryIn (assemble 0 line rest).final final)
    (whole : (assemble 0 line rest).before ++ final :: behind = line' :: rest') : Recommented .closed line line' := by
  rcases assemble_cases 0 line rest with single | ⟨more, several⟩
  · rw [single] at last whole
    cases whole
    exact last
  · rw [several] at whole
    cases whole
    exact .same _

theorem extent_assemble_place (cursor : Int) (line : Text) (rest : List Text) :
    (assemble cursor line rest).extent = (assemble 0 line rest).extent := by
  rw [extent_assemble, extent_assemble, assemble, assembleFrom_place]
  rfl

namespace DifferInComments

theorem by_statements {motive : ∀ lines lines' : List Text, DifferInComments lines lines' → Prop} (nil : motive [] [] .nil)
    (blank : ∀ {line line' rest rest'} (blank : isBlankLine line) (blank' : isBlankLine line')
      (later : DifferInComments rest rest'), motive rest rest' later →
        motive (line :: rest) (line' :: rest') (.blank blank blank' later))
    (statement : ∀ {line line' rest rest'} (_ : isBlankLine line = false) (same : Reworded line rest line' rest'),
      (∀ cursor, motive _ _ (same.later cursor)) → ∀ h, motive (line :: rest) (line' :: rest') h)
    (h : DifferInComments lines lines') : motive lines lines' h := by
  induction h with
  | nil => exact nil
  | blank isBlank isBlank' later ih => exact blank isBlank isBlank' later ih
  | @statement line final rest behind visible ends later ih =>
    obtain ⟨line', rest', whole⟩ := List.exists_cons_of_ne_nil
      (show (assemble 0 line rest).before ++ final :: behind ≠ [] by simp)
    have left : rest'.drop (assemble 0 line rest).extent = behind := by
      rw [extent_assemble, ← List.drop_succ_cons (a := line'), ← whole]
      simp [List.drop_append]
    have empty (done : rest.drop (assemble 0 line rest).extent = []) : behind = [] := by
      rw [done] at later
      cases later
      rfl
    have same : Reworded line rest line' rest' := by
      refine ⟨recommented_opening ends.last whole, ⟨final, fun cursor => ⟨ends.place cursor, ?_⟩⟩, fun cursor => ?_⟩
      · have atStart := assemble_recommented ends.last empty whole
        rw [assemble, assemble] at atStart ⊢
        rw [assembleFrom_place cursor, assembleFrom_place cursor, atStart]
      · rw [extent_assemble_place, left]
        exact later
    have along (cursor : Int) : motive _ _ (same.later cursor) := by
      simpa only [extent_assemble_place, left] using ih
    simpa only [whole] using statement visible same along (whole ▸ .statement visible ends later)

end DifferInComments

end LineProbe
