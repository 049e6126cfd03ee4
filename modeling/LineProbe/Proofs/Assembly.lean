import LineProbe.Proofs.Reader
import LineProbe.Safety.Directive
import LineProbe.Statement

/-!
# The statements of a script

The logical statements of a script are those at the positions that `statementHeads` finds, without the blank lines.
-/

namespace LineProbe

open Text

/-! ## Assembled statements -/

theorem lines_assembleFrom (first : Int) (carry : Carry) (depth : Int) (line : Text) (rest : List Text) :
    (assembleFrom first carry depth line rest).lines =
      line :: rest.take (assembleFrom first carry depth line rest).before.length := by
  fun_induction assembleFrom first carry depth line rest with
  | case2 first carry depth line next rest result depth' goes tail ih => exact congrArg (line :: ·) ih
  | _ => rfl

theorem final_assembleFrom_mem (first : Int) (carry : Carry) (depth : Int) (line : Text) (rest : List Text) :
    (assembleFrom first carry depth line rest).final ∈ line :: rest := by
  have last : (assembleFrom first carry depth line rest).final ∈ (assembleFrom first carry depth line rest).lines :=
    List.mem_append_right _ List.mem_cons_self
  rw [lines_assembleFrom] at last
  exact List.cons_subset_cons _ (List.take_subset _ _) last

theorem carryOut_assembleFrom (first : Int) (carry : Carry) (depth : Int) (line : Text) (rest : List Text) :
    (assembleFrom first carry depth line rest).carryOut =
      (scan (assembleFrom first carry depth line rest).carryIn (assembleFrom first carry depth line rest).final).carry := by
  fun_induction assembleFrom first carry depth line rest with
  | case2 first carry depth line next rest result depth' goes tail ih => exact ih
  | _ => rfl

theorem assembleFrom_place (first : Int) (carry : Carry) (depth : Int) (line : Text) (rest : List Text) :
    assembleFrom first carry depth line rest =
      { assembleFrom 0 carry depth line rest with
        first, last := first + (assembleFrom 0 carry depth line rest).last } := by
  induction rest generalizing first carry depth line with
  | nil => simp [assembleFrom]
  | cons next rest ih =>
    rw [assembleFrom, assembleFrom]
    split
    · rw [ih (first + 1), ih (0 + 1)]
      simp [Int.add_assoc]
    · simp

theorem assembleFrom_take (first : Int) (carry : Carry) (depth : Int) (line : Text) (rest : List Text)
    (enough : (assembleFrom first carry depth line rest).before.length ≤ count) :
    assembleFrom first carry depth line (rest.take count) = assembleFrom first carry depth line rest := by
  induction rest generalizing first carry depth line count with
  | nil => rw [List.take_nil]
  | cons next rest ih =>
    rw [assembleFrom] at enough ⊢
    cases count with
    | zero =>
      rw [List.take_zero, assembleFrom]
      dsimp only at enough ⊢
      split at enough
      · simp at enough
      · next stops => rw [if_neg stops]
    | succ count =>
      rw [List.take_succ_cons, assembleFrom]
      dsimp only at enough ⊢
      split at enough
      · next goes =>
        rw [if_pos goes, if_pos goes, ih]
        simpa using enough
      · next stops => rw [if_neg stops, if_neg stops]

theorem statementIn_of_nonneg (h : 0 ≤ first) (script : List Text) (line : Text) (rest : List Text) :
    statementIn script first line rest = .ok (assemble first line rest) := by
  rw [statementIn, LogicalStatement.within?_of_nonneg _ (by rwa [assemble, first_assembleFrom])]

theorem assemble_eq_of_found (h : 0 ≤ first) (found : statementIn script first line rest = .ok source) :
    assemble first line rest = source := by
  rwa [statementIn_of_nonneg h, Except.ok.injEq] at found

theorem extent_assemble (first : Int) (line : Text) (rest : List Text) :
    (assemble first line rest).extent = (assemble first line rest).before.length := by
  rw [LogicalStatement.extent, last_assemble, assemble, first_assembleFrom]
  omega

theorem lines_assemble (first : Int) (line : Text) (rest : List Text) :
    (assemble first line rest).lines = line :: rest.take (assemble first line rest).extent := by
  rw [extent_assemble]
  exact lines_assembleFrom ..

theorem assemble_take (first : Int) (line : Text) (rest : List Text)
    (enough : (assemble first line rest).extent ≤ count) :
    assemble first line (rest.take count) = assemble first line rest := by
  rw [extent_assemble] at enough
  exact assembleFrom_take _ _ _ _ _ enough

theorem assemble_cases (first : Int) (line : Text) (rest : List Text) :
    assemble first line rest = ⟨first, first, [], line, .closed, (scan .closed line).carry⟩ ∨
      ∃ more, (assemble first line rest).before = line :: more := by
  unfold assemble
  cases rest with
  | nil => exact .inl rfl
  | cons next rest =>
    rw [assembleFrom]
    dsimp only
    split
    · exact .inr ⟨_, rfl⟩
    · exact .inl rfl

theorem headD_lines_assemble (first : Int) (line : Text) (rest : List Text) :
    (assemble first line rest).lines.headD [] = line := by
  rcases assemble_cases first line rest with single | ⟨more, several⟩
  · rw [single]
    rfl
  · rw [LogicalStatement.lines, several]
    rfl

/-! ## Code and indentation -/

namespace LogicalStatement

def body (source : LogicalStatement) : Text :=
  trimLeft source.code

def directives (source : LogicalStatement) : Directives :=
  .ofComment source.comment

end LogicalStatement

theorem Directives.mock_within {comment mock : Text} (h : mock ∈ (ofComment comment).mock) : mock <:+: comment := by
  have step {directives : Directives} {position : Nat} {calls : List NamedCall}
      (before : ∀ mock ∈ directives.mock, mock <:+: comment) :
      ∀ mock ∈ (collect comment directives position calls).mock, mock <:+: comment := by
    induction calls generalizing directives position with
    | nil => exact before
    | cons call calls ih =>
      rw [collect]
      split
      · exact ih before
      · split
        · exact before
        · refine ih fun mock given => ?_
          unfold add at given
          split at given
          · cases given
            exact (trim_within _).trans (slice_within comment _ _)
          · exact before mock given
  exact step (by rintro mock ⟨⟩) mock h

theorem exists_first_of_visible (h : isBlankLine line = false) :
    ∃ c rest, line = leadingBlanks line ++ c :: rest ∧ isBlankChar c = false ∧ c ≠ '#' := by
  unfold isBlankLine at h
  split at h
  · cases h
  · next c rest trimmed =>
    refine ⟨c, rest, ?_, trimLeft_eq_cons trimmed, by simpa using h⟩
    rw [← trimmed, leadingBlanks_append_trimLeft]

theorem Mode.commentStart?_append (mode : Mode) (first last : Text) :
    mode.commentStart? (first ++ last) =
      (mode.commentStart? first).or (((mode.run first).commentStart? last).map (· + first.length)) := by
  induction first generalizing mode with
  | nil => simp [commentStart?]
  | cons c rest ih =>
    rw [List.cons_append, commentStart?, commentStart?, run_cons]
    split
    · rfl
    · rw [ih, Option.map_or, Option.map_map]
      rfl

theorem commentStart?_eq_some {mode : Mode} (h : mode.commentStart? text = some index) :
    text[index]? = some '#' ∧ (mode.run (text.take index)).isSettled := by
  induction text generalizing mode index with
  | nil => cases h
  | cons c rest ih =>
    rw [Mode.commentStart?] at h
    split at h
    · next starts =>
      cases h
      refine ⟨?_, Mode.settled_of_startsComment starts⟩
      cases mode <;> simp_all [Mode.startsComment]
    · obtain ⟨before, found, rfl⟩ := Option.map_eq_some_iff.1 h
      exact ih found

theorem take_commentStart? {carry : Carry} (h : carry.mode.commentStart? (blanks ++ c :: rest) = some index)
    (blank : ∀ d ∈ blanks, isBlankChar d) (first : c ≠ '#') :
    ∃ part, (blanks ++ c :: rest).take index = blanks ++ c :: part := by
  have mark := (commentStart?_eq_some h).1
  have behind : blanks.length < index := by
    by_contra before
    rcases Nat.lt_or_eq_of_le (Nat.not_lt.1 before) with inside | rfl
    · rw [List.getElem?_append_left inside] at mark
      have := blank '#' (List.mem_of_getElem? mark)
      revert this
      decide
    · rw [List.getElem?_append_right (Nat.le_refl _), Nat.sub_self] at mark
      exact first (Option.some.inj mark)
  refine ⟨rest.take (index - blanks.length - 1), ?_⟩
  rw [List.take_append, List.take_of_length_le (Nat.le_of_lt behind)]
  congr 1
  obtain ⟨count, rfl⟩ := Nat.exists_eq_add_of_lt behind
  have : blanks.length + count + 1 - blanks.length = count + 1 := by omega
  simp [this]

theorem finalParts_cases (source : LogicalStatement) :
    source.finalParts.1 = source.final ∨
      ∃ index, source.carryIn.mode.commentStart? source.final = some index ∧
        source.finalParts.1 = source.final.take index := by
  unfold LogicalStatement.finalParts stripComment
  cases starts : source.carryIn.mode.commentStart? source.final with
  | none => exact .inl (by simp)
  | some index =>
    dsimp only
    split
    · exact .inl rfl
    · exact .inr ⟨index, rfl, rfl⟩

theorem joinLines_cons (line : Text) (h : lines ≠ []) :
    joinLines (line :: lines) = line ++ '\n' :: joinLines lines := by
  obtain ⟨next, rest, rfl⟩ := List.exists_cons_of_ne_nil h
  simp [joinLines, join]

theorem joinLines_append (front : first ≠ []) (back : last ≠ []) :
    joinLines (first ++ last) = joinLines first ++ '\n' :: joinLines last := by
  induction first with
  | nil => exact absurd rfl front
  | cons line first ih =>
    by_cases empty : first = []
    · subst empty
      exact joinLines_cons line back
    · rw [List.cons_append, joinLines_cons _ (by simp [back]), ih empty, joinLines_cons _ empty, List.append_assoc,
        List.cons_append]

theorem joinLines_concat_append (before : List Text) (first last : Text) :
    joinLines (before ++ [first ++ last]) = joinLines (before ++ [first]) ++ last := by
  by_cases empty : before = []
  · subst empty
    rfl
  · rw [joinLines_append empty (by simp), joinLines_append empty (by simp), List.append_assoc]
    rfl

theorem exists_tail_of_final (source : LogicalStatement) :
    ∃ tail, source.final = source.finalParts.1 ++ tail ∧
      (tail = [] ∧ source.comment = [] ∨ ∃ note, tail = '#' :: note ∧ trim note = source.comment) := by
  unfold LogicalStatement.comment LogicalStatement.finalParts stripComment
  cases starts : source.carryIn.mode.commentStart? source.final with
  | none => exact ⟨[], by simp, .inl ⟨rfl, by simp⟩⟩
  | some index =>
    dsimp only
    split
    · exact ⟨[], by simp, .inl ⟨rfl, rfl⟩⟩
    · obtain ⟨inside, here⟩ := List.getElem?_eq_some_iff.1 (commentStart?_eq_some starts).1
      refine ⟨source.final.drop index, (List.take_append_drop index _).symm, .inr ⟨source.final.drop (index + 1), ?_, rfl⟩⟩
      rw [List.drop_eq_getElem_cons inside, here]

theorem exists_comment_of_text (source : LogicalStatement) :
    ∃ blanks tail, source.text = source.code ++ (blanks ++ tail) ∧ (∀ c ∈ blanks, isBlankChar c) ∧
      (tail = [] ∧ source.comment = [] ∨ ∃ note, tail = '#' :: note ∧ trim note = source.comment) := by
  obtain ⟨tail, final, commented⟩ := exists_tail_of_final source
  obtain ⟨blanks, trimmed, blank⟩ := trimRight_append_blanks source.finalParts.1
  refine ⟨blanks, tail, ?_, blank, commented⟩
  rw [LogicalStatement.text, LogicalStatement.lines, final, ← trimmed, List.append_assoc, joinLines_concat_append]
  rfl

theorem code_prefix_text (source : LogicalStatement) : source.code <+: source.text := by
  obtain ⟨blanks, tail, whole, -⟩ := exists_comment_of_text source
  exact ⟨blanks ++ tail, whole.symm⟩

theorem comment_within (source : LogicalStatement) : source.comment <:+: source.final := by
  obtain ⟨tail, final, ⟨-, none⟩ | ⟨note, rfl, same⟩⟩ := exists_tail_of_final source
  · exact none ▸ List.nil_infix
  · rw [final, ← same]
    exact (trim_within note).trans ((List.suffix_cons ..).trans (List.suffix_append ..)).isInfix

theorem code_assemble (first : Int) (rest : List Text) (visible : isBlankLine line = false) :
    ∃ c tail, (assemble first line rest).code = leadingBlanks line ++ c :: tail ∧ isBlankChar c = false ∧
      c ≠ '#' := by
  obtain ⟨c, tail, whole, notBlank, notComment⟩ := exists_first_of_visible visible
  rcases assemble_cases first line rest with single | ⟨more, several⟩
  · have final : ∃ part, (assemble first line rest).finalParts.1 = leadingBlanks line ++ c :: part := by
      rcases finalParts_cases (assemble first line rest) with same | ⟨index, starts, cut⟩
      · rw [same, single]
        exact ⟨tail, whole⟩
      · rw [cut]
        rw [single] at starts ⊢
        dsimp only at starts ⊢
        rw [whole] at starts
        obtain ⟨part, taken⟩ := take_commentStart? starts (fun _ => isBlankChar_of_mem_leadingBlanks) notComment
        rw [← whole] at taken
        exact ⟨part, taken⟩
    obtain ⟨part, final⟩ := final
    refine ⟨c, trimRight part, ?_, notBlank, notComment⟩
    rw [LogicalStatement.code, final, trimRight_append_cons _ _ notBlank, single]
    rfl
  · refine ⟨c, tail ++ '\n' :: joinLines (more ++ [trimRight (assemble first line rest).finalParts.1]), ?_,
      notBlank, notComment⟩
    rw [LogicalStatement.code, several, List.cons_append, joinLines_cons _ (by simp), ← List.cons_append,
      ← List.append_assoc, ← whole]

theorem leadingBlanks_append_body_assemble (first : Int) (rest : List Text) (visible : isBlankLine line = false) :
    leadingBlanks line ++ (assemble first line rest).body = (assemble first line rest).code := by
  obtain ⟨c, tail, code, notBlank, -⟩ := code_assemble first rest visible
  rw [LogicalStatement.body, code, trimLeft_append_of_blank fun _ => isBlankChar_of_mem_leadingBlanks]
  simp [trimLeft, notBlank]

theorem starts_body_assemble (first : Int) (rest : List Text) (visible : isBlankLine line = false) :
    Starts (assemble first line rest).body := by
  obtain ⟨c, tail, code, notBlank, -⟩ := code_assemble first rest visible
  have whole := leadingBlanks_append_body_assemble first rest visible
  exact ⟨c, tail, List.append_cancel_left (whole.trans code), notBlank⟩

theorem text_assemble (first : Int) (line : Text) (rest : List Text) :
    ∃ tail, (assemble first line rest).text = line ++ tail := by
  rcases assemble_cases first line rest with single | ⟨more, several⟩
  · rw [single]
    exact ⟨[], by simp [LogicalStatement.text, LogicalStatement.lines, joinLines, join]⟩
  · rw [LogicalStatement.text, LogicalStatement.lines, several, List.cons_append, joinLines_cons _ (by simp)]
    exact ⟨_, rfl⟩

/-! ## All statements of a script -/

def statementsFrom (script : List Text) (index : Int) (lines : List Text) : List LogicalStatement :=
  (statementHeads script index lines).filterMap fun head =>
    match head with
    | .ok (index, line) =>
      if isBlankLine line then none else some (assemble index line (script.drop (index.toNat + 1)))
    | .error _ => none

def logicalStatements (script : List Text) : List LogicalStatement :=
  statementsFrom script 0 script

structure LinesFrom (script : List Text) (index : Int) (lines : List Text) : Prop where
  nonneg : 0 ≤ index
  here : script.drop index.toNat = lines

theorem linesFrom_start (script : List Text) : LinesFrom script 0 script :=
  ⟨by omega, by simp⟩

namespace LinesFrom

theorem drop (h : LinesFrom script index (line :: rest)) (count : Nat) :
    LinesFrom script (index + 1 + count) (rest.drop count) := by
  have nonneg := h.nonneg
  refine ⟨by omega, ?_⟩
  have : (index + 1 + count).toNat = index.toNat + (count + 1) := by omega
  rw [this, ← List.drop_drop, h.here, List.drop_succ_cons]

theorem next (h : LinesFrom script index (line :: rest)) : LinesFrom script (index + 1) rest := by
  simpa using h.drop 0

theorem behind (h : LinesFrom script index (line :: rest)) :
    LinesFrom script ((assemble index line rest).last + 1) (rest.drop (assemble index line rest).extent) := by
  have := h.drop (assemble index line rest).extent
  rwa [show index + 1 + ((assemble index line rest).extent : Int) = (assemble index line rest).last + 1 by
    rw [extent_assemble, last_assemble]; omega] at this

end LinesFrom

@[simp] theorem statementsFrom_nil (script : List Text) (index : Int) : statementsFrom script index [] = [] := by
  simp [statementsFrom, statementHeads]

theorem statementsFrom_blank (blank : isBlankLine line) :
    statementsFrom script index (line :: rest) = statementsFrom script (index + 1) rest := by
  rw [statementsFrom, statementHeads, if_pos blank, List.filterMap_cons]
  simp [blank, statementsFrom]

theorem statementsFrom_visible (h : LinesFrom script index (line :: rest)) (visible : isBlankLine line = false) :
    statementsFrom script index (line :: rest) = assemble index line rest ::
      statementsFrom script ((assemble index line rest).last + 1)
        (rest.drop (assemble index line rest).extent) := by
  have nonneg := h.nonneg
  have behind : script.drop (index.toNat + 1) = rest := by
    rw [← h.next.here]
    congr 1
    omega
  rw [statementsFrom, statementHeads, if_neg (by simp [visible]), statementIn_of_nonneg nonneg,
    List.filterMap_cons]
  simp [visible, behind, statementsFrom]

end LineProbe
