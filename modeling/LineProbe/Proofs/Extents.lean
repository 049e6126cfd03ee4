import LineProbe.Proofs.LineBreaks

/-!
# Where statements end

A statement is put together line by line, from a bracket depth and an open string that are carried along.
-/

namespace LineProbe

open Text

/-! ## The last line -/

structure CompleteAt (lines : List Text) (first last : Nat) : Prop where
  closed : (scan .closed (joinLines (lines.extract first (last + 1)))).carry = .closed
  balanced : (scan .closed (joinLines (lines.extract first (last + 1)))).delta ≤ 0
  unjoined : ∀ line, lines[last]? = some line →
    (scan (scan .closed (joinLines (lines.extract first last))).carry line).comment = none →
    endsWithChar line '\\' = false

/-- Line `last` is the first at which the text from `first` on is complete, or else the last one before `stop`. -/
structure EndsAt (lines : List Text) (first stop last : Nat) : Prop where
  low : first ≤ last
  high : last < stop
  incomplete : ∀ index, first ≤ index → index < last → ¬ CompleteAt lines first index
  complete : CompleteAt lines first last ∨ last + 1 = stop

theorem extract_succ {lines : List Text} (order : first ≤ last) (here : lines[last]? = some line) :
    lines.extract first (last + 1) = lines.extract first last ++ [line] := by
  obtain ⟨bound, rfl⟩ := List.getElem?_eq_some_iff.1 here
  simp only [List.extract_eq_take_drop]
  rw [Nat.succ_sub order, List.take_succ_eq_append_getElem (by rw [List.length_drop]; omega), List.getElem_drop]
  simp only [Nat.add_sub_cancel' order]

theorem completeAt_iff (order : first ≤ last) (here : lines[last]? = some line) :
    CompleteAt lines first last ↔ goesOn (lines.extract first last) line = false := by
  have whole := extract_succ order here
  constructor
  · rintro ⟨closed, balanced, unjoined⟩
    rw [whole] at closed balanced
    simp only [goesOn, Bool.or_eq_false_iff, Bool.and_eq_false_iff, decide_eq_false_iff_not, ne_eq, not_not]
    refine ⟨⟨closed, by omega⟩, ?_⟩
    cases comment : (scan (scan .closed (joinLines (lines.extract first last))).carry line).comment with
    | none => exact .inr (unjoined line here comment)
    | some index => exact .inl rfl
  · intro ends
    simp only [goesOn, Bool.or_eq_false_iff, Bool.and_eq_false_iff, decide_eq_false_iff_not, ne_eq, not_not] at ends
    obtain ⟨⟨closed, balanced⟩, unjoined⟩ := ends
    refine ⟨by rw [whole]; exact closed, by rw [whole]; omega, ?_⟩
    intro line' here' comment
    obtain rfl : line = line' := Option.some.inj (here.symm.trans here')
    exact unjoined.resolve_left (by simp [comment])

theorem extract_cons {lines : List Text} (order : first < stop) (here : lines[first]? = some line) :
    lines.extract first stop = line :: lines.extract (first + 1) stop := by
  obtain ⟨bound, rfl⟩ := List.getElem?_eq_some_iff.1 here
  simp only [List.extract_eq_take_drop]
  rw [List.drop_eq_getElem_cons bound, show stop - first = (stop - (first + 1)) + 1 by omega, List.take_succ_cons]

theorem drop_extract (lines : List Text) (first stop count : Nat) :
    (lines.extract first stop).drop count = lines.extract (first + count) stop := by
  rw [List.extract_eq_take_drop, List.extract_eq_take_drop, List.drop_take, List.drop_drop, Nat.sub_sub]

theorem wholeLines_extract {lines : List Text} {first stop index : Nat} {line : Text} (order : first ≤ index)
    (before : index < stop) (bound : stop ≤ lines.length) (here : lines[index]? = some line)
    (incomplete : ∀ earlier, first ≤ earlier → earlier < index → ¬ CompleteAt lines first earlier) :
    ∃ last, EndsAt lines first stop last ∧ index ≤ last ∧
      wholeLines (lines.extract first index) line (lines.extract (index + 1) stop) = lines.extract index (last + 1) := by
  have single : lines.extract index (index + 1) = [line] := by
    rw [extract_cons (Nat.lt_succ_self _) here, List.extract_eq_take_drop, Nat.sub_self, List.take_zero]
  by_cases more : index + 1 < stop
  · obtain ⟨next, found⟩ : ∃ next, lines[index + 1]? = some next := ⟨_, List.getElem?_eq_getElem (by omega)⟩
    rw [extract_cons more found, wholeLines]
    split
    · next goes =>
      have open_ : ¬ CompleteAt lines first index := by
        rw [completeAt_iff order here, goes]
        simp
      obtain ⟨last, ends, later, taken⟩ := wholeLines_extract (Nat.le_succ_of_le order) more bound found
        fun earlier low high => by
          rcases Nat.lt_succ_iff_lt_or_eq.1 high with high | rfl
          · exact incomplete earlier low high
          · exact open_
      rw [extract_succ order here] at taken
      exact ⟨last, ends, by omega, by rw [taken, ← extract_cons (by omega) here]⟩
    · next stays =>
      exact ⟨index, ⟨order, before, incomplete, .inl ((completeAt_iff order here).2 (by simpa using stays))⟩, Nat.le_refl _,
        single.symm⟩
  · refine ⟨index, ⟨order, before, incomplete, .inr (by omega)⟩, Nat.le_refl _, ?_⟩
    have none_ : lines.extract (index + 1) stop = [] := by
      rw [List.extract_eq_take_drop, Nat.sub_eq_zero_of_le (by omega), List.take_zero]
    rw [none_, wholeLines, single]
termination_by stop - index

theorem endsAt_assemble (order : first < stop) (bound : stop ≤ lines.length) (here : lines[first]? = some line) :
    ∃ last, EndsAt lines first stop last ∧
      (assemble first line (lines.extract (first + 1) stop)).last = last ∧
      (assemble first line (lines.extract (first + 1) stop)).lines = lines.extract first (last + 1) := by
  obtain ⟨last, ends, -, taken⟩ := wholeLines_extract (Nat.le_refl _) order bound here fun _ _ _ => by omega
  rw [@List.extract_eq_take_drop _ lines first first, Nat.sub_self, List.take_zero, ← lines_assemble_wholeLines first]
    at taken
  refine ⟨last, ends, ?_, taken⟩
  have length := congrArg List.length taken
  rw [LogicalStatement.lines, List.length_append, List.length_singleton, @List.extract_eq_take_drop _ lines first,
    List.length_take, List.length_drop] at length
  have low := ends.low
  have high := ends.high
  rw [last_assemble]
  omega

/-! ## Statements of a range -/

theorem linesAlong_eq_extract {first stop : Nat} (bound : stop ≤ lines.length) :
    linesAlong lines first stop = lines.extract first stop := by
  rw [linesAlong, List.extract_eq_take_drop, List.drop_take, List.drop_append,
    List.drop_eq_nil_of_le (by omega), List.nil_append]
  rw [show ((first : Int) + lines.length).toNat - lines.length = first by omega,
    show ((stop : Int) + lines.length).toNat - ((first : Int) + lines.length).toNat = stop - first by omega]

theorem statementAt_eq_assemble {lines : List Text} {first stop : Nat} {line : Text}
    (order : first < min stop lines.length) (here : lines[first]? = some line) :
    statementAt lines first stop = .ok (assemble first line (lines.extract (first + 1) (min stop lines.length))) := by
  have along : linesAlong lines first (max (first + 1) (min stop lines.length)) =
      line :: lines.extract (first + 1) (min stop lines.length) := by
    rw [show max ((first : Int) + 1) (min stop lines.length) = (min stop lines.length : Nat) by omega,
      linesAlong_eq_extract (Nat.min_le_right ..), extract_cons order here]
  rw [statementAt, if_neg (by omega), along]
  exact statementIn_of_nonneg (by omega) ..

inductive IsPart (lines : List Text) (stop : Nat) : (first last : Nat) → Prop where
  | blank {index : Nat} {line : Text} (here : lines[index]? = some line) (blank : isBlankLine line = true) :
    IsPart lines stop index index
  | statement {first last : Nat} {line : Text} {statement : LogicalStatement} (here : lines[first]? = some line)
    (visible : isBlankLine line = false) (read : statementAt lines first stop = .ok statement)
    (order : first ≤ last) (ends : statement.last = last) :
    IsPart lines stop first last

/-- The parts of the lines from `start` up to `stop`: they follow each other without a gap and do not overlap. -/
structure Partition (lines : List Text) (start stop : Nat) (parts : List (Nat × Nat)) : Prop where
  isPart : ∀ part ∈ parts, IsPart lines stop part.1 part.2
  covers : parts.flatMap (fun part => List.range' part.1 (part.2 + 1 - part.1)) = List.range' start (stop - start)

theorem Partition.cons {lines : List Text} {first last stop : Nat} {parts : List (Nat × Nat)}
    (part : IsPart lines stop first last) (order : first ≤ last) (inside : last < stop)
    (later : Partition lines (last + 1) stop parts) : Partition lines first stop ((first, last) :: parts) := by
  refine ⟨List.forall_mem_cons.2 ⟨part, later.isPart⟩, ?_⟩
  rw [List.flatMap_cons, later.covers]
  have joined := @List.range'_append first (last + 1 - first) (stop - (last + 1)) 1
  rw [show first + 1 * (last + 1 - first) = last + 1 by omega,
    show last + 1 - first + (stop - (last + 1)) = stop - first by omega] at joined
  exact joined

theorem statementHeads_partition {lines : List Text} {first stop : Nat} (order : first ≤ stop)
    (bound : stop ≤ lines.length) :
    ∃ parts heads, (statementHeads lines first (lines.extract first stop)).mapM id = .ok heads ∧
      heads.map Prod.fst = parts.map (fun part => (part.1 : Int)) ∧ Partition lines first stop parts := by
  by_cases empty : first = stop
  · subst empty
    refine ⟨[], [], ?_, rfl, by simp, by simp⟩
    rw [List.extract_eq_take_drop, Nat.sub_self, List.take_zero, statementHeads]
    rfl
  have more : first < stop := by omega
  obtain ⟨line, here⟩ : ∃ line, lines[first]? = some line := ⟨_, List.getElem?_eq_getElem (by omega)⟩
  rw [extract_cons more here, statementHeads]
  split
  · next blank =>
    obtain ⟨parts, heads, found, starts, parted⟩ := statementHeads_partition more bound
    refine ⟨(first, first) :: parts, (first, line) :: heads, ?_, by simp [starts],
      .cons (.blank here blank) (Nat.le_refl _) more parted⟩
    rw [List.mapM_cons, show (first : Int) + 1 = (first + 1 : Nat) by omega, found]
    rfl
  · next visible =>
    obtain ⟨last, ends, reached, taken⟩ := endsAt_assemble more bound here
    have low := ends.low
    have high := ends.high
    obtain ⟨parts, heads, found, starts, parted⟩ := statementHeads_partition (Nat.succ_le_of_lt high) bound
    have read := @statementAt_eq_assemble lines first stop line (by omega) here
    rw [Nat.min_eq_left bound] at read
    refine ⟨(first, last) :: parts, (first, line) :: heads, ?_, by simp [starts],
      .cons (.statement here (by simpa using visible) read low reached) low high parted⟩
    have extent := extent_assemble first line (lines.extract (first + 1) stop)
    have whole := last_assemble first line (lines.extract (first + 1) stop)
    rw [statementIn_of_nonneg (by omega)]
    dsimp only
    rw [List.mapM_cons, reached, drop_extract, show (last : Int) + 1 = (last + 1 : Nat) by omega,
      show first + 1 + (assemble first line (lines.extract (first + 1) stop)).extent = last + 1 by omega, found]
    rfl
termination_by stop - first

/-- Assembly is exact. A statement ends at the first line at which the text from its beginning on, read at once, is
complete, or at the last line of the range if there is none. Its text is its code, white space and its comment, and the
range is cut into blank lines and statements without gaps. -/
theorem assembly_exact (lines : List Text) (start stop : Nat) (order : start < min stop lines.length) :
    (∃ statement last, statementAt lines start stop = .ok statement ∧
      EndsAt lines start (min stop lines.length) last ∧ statement.first = start ∧ statement.last = last ∧
      statement.lines = lines.extract start (last + 1) ∧
      ∃ blanks tail, joinLines (lines.extract start (last + 1)) = statement.code ++ (blanks ++ tail) ∧
        (∀ c ∈ blanks, isBlankChar c = true) ∧
        (tail = [] ∧ statement.comment = [] ∨ ∃ note, tail = '#' :: note ∧ trim note = statement.comment)) ∧
    ∃ parts, statementStarts lines start stop = .ok (parts.map fun part => (part.1 : Int)) ∧
      Partition lines start (min stop lines.length) parts := by
  have bound : min stop lines.length ≤ lines.length := Nat.min_le_right ..
  constructor
  · obtain ⟨line, here⟩ : ∃ line, lines[start]? = some line := ⟨_, List.getElem?_eq_getElem (by omega)⟩
    obtain ⟨last, ends, reached, taken⟩ := endsAt_assemble order bound here
    refine ⟨_, last, statementAt_eq_assemble order here, ends, first_assembleFrom .., reached, taken, ?_⟩
    rw [← taken]
    exact exists_comment_of_text _
  · obtain ⟨parts, heads, found, starts, parted⟩ := statementHeads_partition (Nat.le_of_lt order) bound
    refine ⟨parts, ?_, parted⟩
    rw [statementStarts, if_neg (by omega), show min (stop : Int) lines.length = (min stop lines.length : Nat) by omega,
      linesAlong_eq_extract bound, found, ← starts]
    rfl

def wrappedLines : List Text :=
  ["x = (1,  # one".toList, "\"\"\"\\".toList, "\"\"\")  # two".toList, [], "y \\".toList]

theorem assembly_exact_wrapped :
    0 < min 9 wrappedLines.length ∧ EndsAt wrappedLines 0 5 2 ∧
      ∃ parts, statementStarts wrappedLines 0 9 = .ok (parts.map fun part => (part.1 : Int)) ∧
        Partition wrappedLines 0 5 parts := by
  obtain ⟨⟨statement, last, read, ends, -, reached, -⟩, parted⟩ := assembly_exact wrappedLines 0 9 (by decide)
  have value : (statementAt wrappedLines 0 9).toOption.map LogicalStatement.last = some 2 := by decide +kernel
  obtain rfl : last = 2 := by
    change statementAt wrappedLines 0 9 = _ at read
    rw [read] at value
    have : statement.last = 2 := Option.some.inj value
    omega
  exact ⟨by decide, ends, parted⟩

end LineProbe
