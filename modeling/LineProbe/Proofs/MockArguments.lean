import LineProbe.Proofs.Recognition
import LineProbe.Proofs.Rescan

/-!
# Arguments of mock directives

The argument of a directive ends at the bracket that closes its parenthesis, which is found by reading the whole
comment as code.
-/

namespace LineProbe

open Text

/-! ## Texts without comments -/

variable {mode : Mode}

namespace Mode

theorem commentStart?_eq_none_iff : mode.commentStart? text = none ↔
    ∀ index < text.length, text[index]?.any (mode.run (text.take index)).startsComment = false := by
  induction text generalizing mode with
  | nil => simp [commentStart?]
  | cons c rest ih =>
    rw [commentStart?]
    constructor
    · intro unmarked index bound
      split at unmarked
      · cases unmarked
      · next first =>
        cases index with
        | zero => simpa using first
        | succ index => simpa using ih.1 (Option.map_eq_none_iff.1 unmarked) index (by simpa using bound)
    · intro unmarked
      have first : mode.startsComment c = false := by simpa using unmarked 0 (by simp)
      rw [first, if_neg (by simp), Option.map_eq_none_iff, ih]
      intro index bound
      simpa using unmarked (index + 1) (by simpa using bound)

theorem run_ne_comment (unmarked : mode.commentStart? text = none) (other : mode ≠ .comment) :
    mode.run text ≠ .comment := by
  induction text generalizing mode with
  | nil => exact other
  | cons c rest ih =>
    rw [commentStart?] at unmarked
    split at unmarked
    · cases unmarked
    · next unmarked_ =>
      exact ih (Option.map_eq_none_iff.1 unmarked) (next_ne_comment (by simpa using unmarked_) other)

theorem startsComment_of_blank (blank : isBlankChar c) (mode : Mode) : mode.startsComment c = false := by
  have other : c ≠ '#' := by
    rintro rfl
    exact absurd blank (by decide)
  cases mode <;> simp [startsComment, other]

theorem carry_next_blank (blank : isBlankChar c) (settled : (mode.next c).isSettled) : mode.carry = .closed := by
  by_cases newline : c = '\n'
  · rw [newline, next_newline] at settled
    cases carried : mode.carry with
    | closed => rfl
    | short | long => simp [carried, Carry.mode, isSettled] at settled
  · have notSingle : c ≠ '\'' := by rintro rfl; exact absurd blank (by decide)
    have notDouble : c ≠ '"' := by rintro rfl; exact absurd blank (by decide)
    exact carry_of_settled (settled_of_next settled newline notSingle notDouble)

theorem settled_before_white (blank : ∀ c ∈ blanks, isBlankChar c) (other : mode ≠ .comment)
    (settled : (mode.run blanks).isSettled) : mode.isSettled := by
  induction blanks generalizing mode with
  | nil => exact settled
  | cons c rest ih =>
    rw [List.forall_mem_cons] at blank
    have later := ih blank.2 (next_ne_comment (startsComment_of_blank blank.1 mode) other) settled
    exact settled_of_carry (carry_next_blank blank.1 later) other

end Mode

theorem Closed.trim (closed : Closed text) (unmarked : Mode.code.commentStart? text = none) :
    Closed (trim text) ∧ Mode.code.commentStart? (Text.trim text) = none := by
  obtain ⟨blanks, whole, blank⟩ := trimRight_append_blanks (trimLeft text)
  have quiet : ∀ c ∈ leadingBlanks text, isQuiet c := fun c mem =>
    isQuiet_of_isBlankChar (isBlankChar_of_mem_leadingBlanks mem)
  have mode : Mode.code.run (leadingBlanks text) = .code := by
    have run := congrArg Reader.mode (Reader.run_start_quiet quiet)
    rwa [Reader.mode_run] at run
  have parts : leadingBlanks text ++ (Text.trim text ++ blanks) = text := by
    rw [Text.trim, whole, leadingBlanks_append_trimLeft]
  rw [← parts, Mode.commentStart?_append, Option.or_eq_none_iff, mode, Option.map_eq_none_iff,
    Mode.commentStart?_append, Option.or_eq_none_iff] at unmarked
  obtain ⟨above, depth, settled⟩ := closed
  rw [← parts, Reader.above_append, Reader.run_start_quiet quiet, Reader.above_append] at above
  rw [← parts, Reader.run_append, Reader.run_start_quiet quiet, Reader.run_append] at depth settled
  rw [Reader.depth_run_blank blank] at depth
  rw [Reader.mode_run] at settled
  refine ⟨⟨above.2.1, depth, Mode.settled_before_white blank ?_ settled⟩, unmarked.2.1⟩
  rw [Reader.mode_run]
  exact Mode.run_ne_comment unmarked.2.1 (by simp [Reader.start])

theorem Closed.scan_eq (closed : Closed text) (unmarked : Mode.code.commentStart? text = none) :
    scan .closed text = ⟨0, .closed, none⟩ := by
  simp only [scan, Carry.mode, closed.bracketDelta, Mode.carry_of_settled closed.mode_settled, unmarked]

/-- The text leaves nothing open, alone and in parentheses, and the parentheses belong together. -/
structure Spliceable (text : Text) : Prop where
  alone : scan .closed text = ⟨0, .closed, none⟩
  wrapped : scan .closed ('(' :: (text ++ [')'])) = ⟨0, .closed, none⟩
  matched : matchingBracket? ('(' :: (text ++ [')'])) 0 = some (text.length + 1)

theorem Closed.spliceable (closed : Closed text) (unmarked : Mode.code.commentStart? text = none) :
    Spliceable text := by
  have opens : isOpener '(' := rfl
  have closes : isCloser ')' := rfl
  have taken := Reader.takes_brackets (show Reader.start.mode.isSettled from rfl) (Int.le_refl 0) opens closes closed
  have unmarked' : Mode.code.commentStart? ('(' :: (text ++ [')'])) = none := by
    have enter : Mode.code.next '(' = .code := rfl
    have leave : (Mode.code.run text).startsComment ')' = false := by
      cases Mode.code.run text <;> rfl
    have first : Mode.code.startsComment '(' = false := rfl
    simp [Mode.commentStart?, Mode.commentStart?_append, first, enter, unmarked, leave]
  refine ⟨closed.scan_eq unmarked, (Settles.of_takes taken rfl).toClosed.scan_eq unmarked', ?_⟩
  have found := closed.matchingBracket? (show (Mode.code.run []).isSettled from rfl) opens closes []
  simpa [Nat.add_comm] using found

namespace Directives

/-! ## Directives that are read -/

structure Directive where
  call : NamedCall
  close : Nat
deriving DecidableEq

def Directive.isMock (directive : Directive) : Bool :=
  directive.call.name = "mock"

def Directive.argument (directive : Directive) (comment : Text) : Text :=
  trim (slice comment (directive.call.openParen + 1) directive.close)

def readAmong (comment : Text) (position : Nat) : List NamedCall → List Directive
  | [] => []
  | call :: calls =>
    if call.start < position then readAmong comment position calls
    else
      match matchingBracket? comment call.openParen with
      | .none => []
      | some close => ⟨call, close⟩ :: readAmong comment (close + 1) calls

def lastMock? (comment : Text) : Option Directive :=
  ((readAmong comment 0 (namedCalls ["mock", "limit"] isWordChar comment)).filter Directive.isMock).getLast?

theorem collect_mock (comment : Text) (directives : Directives) (position : Nat) (calls : List NamedCall) :
    (collect comment directives position calls).mock =
      ((((readAmong comment position calls).filter Directive.isMock).getLast?).map (·.argument comment)).or
        directives.mock := by
  induction calls generalizing directives position with
  | nil => rfl
  | cons call calls ih =>
    rw [collect, readAmong]
    split
    · exact ih directives position
    · cases matchingBracket? comment call.openParen with
      | none => rfl
      | some close =>
        dsimp only
        rw [ih, add]
        by_cases mock : call.name = "mock"
        · rw [if_pos mock, List.filter_cons_of_pos (by simpa [Directive.isMock] using mock), List.getLast?_cons]
          cases ((readAmong comment (close + 1) calls).filter Directive.isMock).getLast? <;> rfl
        · rw [if_neg mock, List.filter_cons_of_neg (by simpa [Directive.isMock] using mock)]

theorem ofComment_mock (comment : Text) : (ofComment comment).mock = (lastMock? comment).map (·.argument comment) := by
  rw [ofComment, collect_mock, lastMock?]
  exact Option.or_none

variable {directive : Directive}

theorem matchingBracket?_of_read (h : directive ∈ readAmong comment position calls) :
    matchingBracket? comment directive.call.openParen = some directive.close := by
  induction calls generalizing position with
  | nil => cases h
  | cons call calls ih =>
    rw [readAmong] at h
    split at h
    · exact ih h
    · split at h
      · cases h
      · next found =>
        rcases List.mem_cons.1 h with rfl | later
        · exact found
        · exact ih later

theorem matchingBracket?_of_lastMock? (h : lastMock? comment = some directive) :
    matchingBracket? comment directive.call.openParen = some directive.close :=
  matchingBracket?_of_read (List.mem_filter.1 (List.mem_of_getLast? h)).1

/-! ## Plain directives -/

/-- The parenthesis of the directive is a code character of the comment, and no comment begins behind it, up to the
bracket that closes it. -/
structure Directive.Plain (directive : Directive) (comment : Text) : Prop where
  visible : ((places comment).map Place.index).contains directive.call.openParen = true
  unmarked : ∀ index, directive.call.openParen < index → index < directive.close →
    comment[index]?.any (Mode.code.run (comment.take index)).startsComment = false

theorem exists_between (closing : matchingBracket? comment directive.call.openParen = some directive.close)
    (visible : ((places comment).map Place.index).contains directive.call.openParen) :
    ∃ before c inner d rest, comment = before ++ c :: (inner ++ d :: rest) ∧ before.length = directive.call.openParen ∧
      Mode.code.run (before ++ [c]) = .code ∧ directive.close = before.length + 1 + inner.length ∧ Closed inner ∧
      directive.argument comment = trim inner := by
  obtain ⟨c, here⟩ : ∃ c, comment[directive.call.openParen]? = some c := by
    cases here : comment[directive.call.openParen]? with
    | none => simp [matchingBracket?, here] at closing
    | some c => exact ⟨c, rfl⟩
  obtain ⟨bound, here⟩ := List.getElem?_eq_some_iff.1 here
  have whole : comment = comment.take directive.call.openParen ++ c :: comment.drop (directive.call.openParen + 1) := by
    rw [← here, ← List.drop_eq_getElem_cons bound, List.take_append_drop]
  have length : (comment.take directive.call.openParen).length = directive.call.openParen :=
    List.length_take_of_le (Nat.le_of_lt bound)
  generalize comment.take directive.call.openParen = before at whole length
  generalize comment.drop (directive.call.openParen + 1) = after at whole
  subst whole
  rw [← length, contains_index_places] at visible
  rw [← length] at closing
  have opens : isOpener c := by
    by_contra other
    simp [matchingBracket?, other] at closing
  have inLine : c ≠ '\n' := by
    rintro rfl
    cases opens
  have settled := Mode.settled_of_readsCode visible inLine
  obtain ⟨-, inner, d, rest, rfl, close, -, closed⟩ := matchingBracket?_spec closing settled
  refine ⟨before, c, inner, d, rest, rfl, length, ?_, close, closed, ?_⟩
  · rw [Mode.run_append]
    exact Mode.next_of_readsCode visible
  · have cut := Construct.slice_append (before ++ [c]) inner (d :: rest)
    rw [Directive.argument, ← length, close]
    simpa using congrArg trim cut

theorem between_at {inner : Text} (enter : Mode.code.run (before ++ [c]) = .code) (d : Char) (rest : Text)
    (bound : index < inner.length) :
    (before ++ c :: (inner ++ d :: rest))[before.length + 1 + index]? = inner[index]? ∧
      Mode.code.run ((before ++ c :: (inner ++ d :: rest)).take (before.length + 1 + index)) =
        Mode.code.run (inner.take index) := by
  have whole : before ++ c :: (inner ++ d :: rest) = (before ++ [c]) ++ (inner ++ d :: rest) := by simp
  have length : before.length + 1 = (before ++ [c]).length := by simp
  rw [whole, length, List.getElem?_append_right (by omega), Nat.add_sub_cancel_left, List.getElem?_append_left bound,
    List.take_length_add_append, Mode.run_append, enter, List.take_append_of_le_length (Nat.le_of_lt bound)]
  exact ⟨rfl, rfl⟩

theorem Directive.plain_of_oneLine (oneLine : '\n' ∉ comment)
    (closing : matchingBracket? comment directive.call.openParen = some directive.close)
    (visible : ((places comment).map Place.index).contains directive.call.openParen) : directive.Plain comment := by
  refine ⟨visible, fun index after before => ?_⟩
  obtain ⟨front, c, inner, d, rest, rfl, start, enter, close, closed, -⟩ := exists_between closing visible
  have inLine : '\n' ∉ inner := fun mem => oneLine (by simp [mem])
  have unmarked := Mode.commentStart?_isNone inLine (show Mode.code ≠ .comment by decide)
  have ended : Mode.code.run inner ≠ .comment := by
    intro comment
    have settled := closed.mode_settled
    rw [comment] at settled
    cases settled
  rw [decide_eq_true ended, Option.isNone_iff_eq_none, Mode.commentStart?_eq_none_iff] at unmarked
  obtain ⟨offset, rfl⟩ := Nat.exists_eq_add_of_le (show front.length + 1 ≤ index by omega)
  obtain ⟨here, mode⟩ := between_at enter d rest (show offset < inner.length by omega)
  rw [here, mode]
  exact unmarked offset (by omega)

/-- The mock of a comment may be put in parentheses, if the directive that it is the argument of is plain. -/
theorem spliceable_of_plain {comment mock : Text} (parsed : (ofComment comment).mock = some mock)
    (plain : ∀ directive ∈ lastMock? comment, directive.Plain comment) : Spliceable mock := by
  rw [ofComment_mock] at parsed
  obtain ⟨directive, last, rfl⟩ := Option.map_eq_some_iff.1 parsed
  obtain ⟨visible, unmarked⟩ := plain directive last
  obtain ⟨before, c, inner, d, rest, rfl, start, enter, close, closed, argument⟩ :=
    exists_between (matchingBracket?_of_lastMock? last) visible
  have unmarked' : Mode.code.commentStart? inner = Option.none := by
    rw [Mode.commentStart?_eq_none_iff]
    intro index bound
    obtain ⟨here, mode⟩ := between_at enter d rest bound
    have := unmarked (before.length + 1 + index) (by omega) (by omega)
    rwa [here, mode] at this
  obtain ⟨closed', unmarked''⟩ := closed.trim unmarked'
  rw [argument]
  exact closed'.spliceable unmarked''

theorem spliceable_of_plain_nested :
    (ofComment "limit(3), then mock( f(\"(\", [1]) ) if need be").mock = some "f(\"(\", [1])".toList ∧
      Spliceable "f(\"(\", [1])" := by
  have parsed : (ofComment "limit(3), then mock( f(\"(\", [1]) ) if need be").mock = some "f(\"(\", [1])".toList := by
    decide +kernel
  refine ⟨parsed, spliceable_of_plain parsed ?_⟩
  intro directive last
  have known : lastMock? "limit(3), then mock( f(\"(\", [1]) ) if need be" = some ⟨⟨"mock", 15, 19⟩, 33⟩ := by decide +kernel
  obtain rfl := Option.some.inj (last.symm.trans known)
  exact Directive.plain_of_oneLine (by decide +kernel) (matchingBracket?_of_lastMock? last) (by decide +kernel)

/-- A mock that leaves a string open, because the parenthesis of its directive is inside a string, and one with a
comment in it. -/
theorem mock_leaves_string_open :
    (ofComment "'mock(a' (b)").mock = some "a' (b".toList ∧ scan .closed "a' (b" = ⟨0, .short .single, .none⟩ ∧
      (ofComment "mock(1 # )\n)").mock = some "1 # )".toList ∧ scan .closed "1 # )" = ⟨0, .closed, some 2⟩ := by
  decide +kernel

end Directives

end LineProbe
