import LineProbe.Proofs.Kinds

/-!
# The arguments of a call of `print`

`Mode.parts` divides a text at the marks outside its brackets, strings and comments.
-/

namespace LineProbe

open Text

/-! ## Parts of a text -/

def Mode.parts (mark : Char) : Mode → Nat → Text → List Text
  | _, _, [] => [[]]
  | mode, depth, c :: rest =>
    let behind := (mode.next c).parts mark (mode.depthNext depth c) rest
    if mode.readsCode c && depthOf depth c == 0 && c == mark then [] :: behind else behind.modifyHead (c :: ·)

def laterParts (mark : Char) : Text → List Text
  | [] => []
  | _ :: rest => Mode.code.parts mark 0 rest

theorem Mode.parts_eq (mark : Char) (previous : Option Char) (mode : Mode) (depth : Nat) (text : Text) :
    mode.parts mark depth text =
      match firstTop (charTest mark) previous mode depth text with
      | none => [text]
      | some index => text.take index :: ((mode.run (text.take index)).next mark).parts mark
          ((mode.run (text.take index)).depthNext (mode.depthRun depth (text.take index)) mark) (text.drop (index + 1)) := by
  induction text generalizing previous mode depth with
  | nil => rfl
  | cons c rest ih =>
    have hit : (c == mark) = charTest mark previous (c :: rest) := rfl
    rw [parts, firstTop, ← hit, ih (some c)]
    by_cases here : (mode.readsCode c && depthOf depth c == 0 && c == mark)
    · obtain rfl : c = mark := by simpa using (Bool.and_eq_true_iff.1 here).2
      rw [if_pos here, if_pos here, ← ih (some c)]
      rfl
    · rw [if_neg here, if_neg here]
      cases firstTop (charTest mark) (some c) (mode.next c) (mode.depthNext depth c) rest <;> rfl

theorem Instrument.CommaCut.parts_eq (cut : Instrument.CommaCut first rest) :
    Mode.code.parts ',' 0 (first ++ rest) = first :: laterParts ',' rest := by
  rw [Mode.parts_eq ',' none, cut.found]
  cases rest with
  | nil => simp [laterParts]
  | cons c rest =>
    obtain rfl := cut.comma c rfl
    have reads : (Mode.code.run first).readsCode ',' := Mode.readsCode_of_settled cut.closed.mode_settled (by decide)
    have behind : (first ++ ',' :: rest).drop (first.length + 1) = rest := by simp
    simp only [reduceCtorEq, if_false, List.take_left, behind, cut.closed.depthRun, Mode.next_of_readsCode reads,
      Mode.depthNext, reads]
    rfl

/-! ## The spliced arguments -/

namespace Instrument

def IsKeyword (argument : Text) : Prop :=
  ∃ name blanks value, argument = name ++ blanks ++ '=' :: value ∧ nameAtStart name = name ∧ name ≠ [] ∧
    (∀ c ∈ blanks, isBlankChar c = true) ∧ value.head? ≠ some '='

theorem isKeywordArgument_iff : isKeywordArgument argument ↔ IsKeyword argument := by
  have ends {blanks value : Text} (blank : ∀ c ∈ blanks, isBlankChar c) :
      ∀ c ∈ (blanks ++ '=' :: value).head?, isWordChar c = false := by
    intro c first
    cases blanks with
    | nil =>
      cases first
      decide
    | cons d blanks =>
      cases first
      exact isWordChar_of_isBlankChar (blank _ List.mem_cons_self)
  simp only [isKeywordArgument, Bool.and_eq_true, decide_eq_true_eq, Option.isSome_iff_exists,
    Construct.afterEquals?_iff]
  constructor
  · rintro ⟨named, value, equals, single⟩
    let blanks := leadingBlanks (argument.drop (nameAtStart argument).length)
    have blank : ∀ c ∈ blanks, isBlankChar c := fun c => isBlankChar_of_mem_leadingBlanks
    have whole : nameAtStart argument ++ (blanks ++ '=' :: value) = argument := by
      rw [← equals, leadingBlanks_append_trimLeft]
      exact List.prefix_iff_eq_append.1 (isPrefix_nameAtStart argument)
    refine ⟨nameAtStart argument, blanks, value, by rw [List.append_assoc, whole], ?_, named, blank, single⟩
    rw [← nameAtStart_append _ (ends blank), whole]
  · rintro ⟨name, blanks, value, rfl, plain, named, blank, single⟩
    rw [List.append_assoc, nameAtStart_append _ (ends blank), plain, List.drop_left, trimLeft_append_of_blank blank,
      trimLeft_of_head (by rintro c ⟨⟩; decide)]
    exact ⟨named, value, rfl, single⟩

/-- The arguments of a call without and with a tag: it takes the place of a first one that is blank, stands before one
that is starred or a keyword argument, and is put before the text of any other. -/
inductive Spliced (tag : Text) : List Text → List Text → Prop where
  | replaced {first : Text} {others : List Text} (blank : ∀ c ∈ first, isBlankChar c = true) :
    Spliced tag (first :: others) (tag :: others)
  | inserted {first : Text} {others : List Text} (h : (trim first).head? = some '*' ∨ IsKeyword (trim first)) :
    Spliced tag (first :: others) (tag :: (' ' :: first) :: others)
  | shown {first : Text} {others : List Text} (filled : ¬ ∀ c ∈ first, isBlankChar c = true)
    (single : (trim first).head? ≠ some '*') (positional : ¬ IsKeyword (trim first)) :
    Spliced tag (first :: others) ((tag ++ " + str(" ++ first ++ ")") :: others)

theorem comma_not_mem_tag (line : Int) : ',' ∉ Probe.tag line := by
  have digits (n : Nat) : ',' ∉ ofNat n := fun mem => absurd (isDigit_of_mem_ofNat mem) (by decide)
  have number : ',' ∉ ofInt line := by
    cases line with
    | ofNat n => exact digits n
    | negSucc n => exact List.not_mem_cons_of_ne_of_not_mem (by decide) (digits _)
  simp only [Probe.tag, List.mem_append, not_or]
  exact ⟨⟨by decide, number⟩, by decide⟩

theorem free_of_not_mem (h : mark ∉ text) (previous : Option Char) (mode : Mode) (depth : Nat) :
    Free (charTest mark) previous mode depth text := by
  intro part c rest behind whole _ _
  have other : c ≠ mark := by
    rintro rfl
    exact h (by simp [whole])
  simpa [charTest] using other

theorem commaCut_of_free (closed : Closed front) (free : Free (charTest ',') none .code 0 front) (others : Closed rest)
    (comma : ∀ c ∈ rest.head?, c = ',') : CommaCut front rest := by
  refine ⟨closed, others, comma, ?_⟩
  rw [free.firstTop, closed.depthRun]
  cases rest with
  | nil => rfl
  | cons c rest =>
    obtain rfl := comma c rfl
    have reads : (Mode.code.run front).readsCode ',' := Mode.readsCode_of_settled closed.mode_settled (by decide)
    rw [firstTop, reads, if_neg (List.cons_ne_nil _ _)]
    simp [depthOf, charTest]

theorem Splices.parts (h : Splices line arguments text) (closed : Closed arguments) :
    Spliced (Probe.tag line) (Mode.code.parts ',' 0 arguments) (Mode.code.parts ',' 0 text) := by
  have tag : Reader.start.Takes (Probe.tag line) Reader.start := Reader.takes_tag (Int.le_refl 0) line
  have closedTag : Closed (Probe.tag line) := (Settles.of_takes tag rfl).toClosed
  have free := free_of_not_mem (comma_not_mem_tag line) none .code 0
  cases h with
  | replaced cut blank =>
    rw [cut.parts_eq, (commaCut_of_free closedTag free cut.others cut.comma).parts_eq]
    exact .replaced (trim_eq_nil_iff.1 blank)
  | @inserted first rest cut special =>
    have comma : Reader.start.Takes ", ".toList Reader.start := Reader.takes_plain (Int.le_refl 0) (by decide)
    have spaced : laterParts ',' (", ".toList ++ (first ++ rest)) =
        (Mode.code.parts ',' 0 (first ++ rest)).modifyHead (' ' :: ·) := rfl
    rw [(commaCut_of_free closedTag free (closed.behind comma) (by rintro c ⟨⟩; rfl)).parts_eq, spaced, cut.parts_eq]
    exact .inserted (special.imp_right isKeywordArgument_iff.1)
  | @shown first rest cut filled other =>
    rw [not_or] at other
    have named : Reader.start.Takes (Probe.tag line ++ " + str".toList) Reader.start :=
      tag.append (Reader.takes_plain (Int.le_refl 0) (by decide))
    have settled : (Mode.code.run (Probe.tag line ++ " + str".toList)).isSettled := by
      rw [named.mode_run]
      rfl
    have front : ',' ∉ Probe.tag line ++ " + str".toList := List.not_mem_append (comma_not_mem_tag line) (by decide)
    have free' : Free (charTest ',') none .code 0 ((Probe.tag line ++ " + str".toList) ++ '(' :: (first ++ [')'])) :=
      (free_of_not_mem front none .code 0).append (cut.closed.free_brackets settled
        (fun _ _ => rfl) (fun _ _ => rfl) _ _)
    have closed' : Closed ((Probe.tag line ++ " + str".toList) ++ '(' :: (first ++ [')'])) :=
      (Settles.of_takes (named.append cut.closed.bracketed) rfl).toClosed
    have shown : (Probe.tag line ++ " + str".toList) ++ '(' :: (first ++ [')']) =
        Probe.tag line ++ " + str(".toList ++ first ++ ")".toList := by
      have enter : (" + str(" : String).toList = " + str".toList ++ ['('] := by decide +kernel
      rw [enter]
      simp
    rw [cut.parts_eq, ← List.append_assoc, ← List.append_assoc,
      (commaCut_of_free closed' free' cut.others cut.comma).parts_eq, shown]
    exact .shown (mt trim_eq_nil_iff.2 filled) other.1 (mt isKeywordArgument_iff.2 other.2)

def argumentTexts (code : Text) (openParen closeParen : Nat) : List Text :=
  Mode.code.parts ',' 0 (slice code (openParen + 1) closeParen)

theorem limitGuard_run (st : Statement) (level : Nat) (pass : Pass) :
    ∃ guards pass', (limitGuard st level).run pass = .ok (guards, pass') := by
  unfold limitGuard
  split
  · exact ⟨_, _, run_pure_ok.2 rfl⟩
  · split
    · exact ⟨_, _, run_pure_ok.2 rfl⟩
    · exact ⟨_, _, run_bind_ok.2 ⟨_, _, run_drawNumber.2 rfl, run_pure_ok.2 rfl⟩⟩

/-- A call of `print` is a call of `print` with the tag of its line spliced in, and only the front of its
arguments differs. -/
theorem printed_arguments {st : Statement} {openParen closeParen : Nat}
    (call : Construct.classify st.body = .ok (.printCall openParen closeParen)) (pass : Pass) :
    ∃ guards body close pass', Guards st st.level pass guards pass' ∧
      (printStep st openParen closeParen).run pass =
        .ok (⟨guards ++ [st.own body] ++ st.interior st.level, st.level, []⟩, pass') ∧
      Construct.classify body = .ok (.printCall openParen close) ∧
      body.take (openParen + 1) = st.body.take (openParen + 1) ∧ body.drop close = st.body.drop closeParen ∧
      Spliced (Probe.tag st.first) (argumentTexts st.body openParen closeParen) (argumentTexts body openParen close) := by
  have found : Construct.print? st.body = some (.printCall openParen closeParen) := by
    cases Construct.classify_ok call with
    | printCall found => exact found
  obtain ⟨guards, pass', guarded⟩ := limitGuard_run st st.level pass
  obtain ⟨blanks, inner, close, behind, whole, rfl, rfl, blank, closed, closes, trailing⟩ :=
    Construct.print?_iff_shape.1 found
  have splices := splices_splicedArguments st.first closed
  have written := splicedBody_eq whole
  rw [List.cons_append, ← List.append_cons] at written
  have found' := Construct.print?_iff_shape.2 ⟨blanks, _, close, behind, written, rfl, rfl, blank,
    splices.closed closed, closes, trailing⟩
  have untargeted := Construct.firstWord_of_print? found'
  rw [written] at untargeted
  replace untargeted := Construct.targeted?_eq_none_of_name untargeted (by decide) blank (by decide) (by decide)
  rw [← written] at untargeted
  obtain ⟨front, texts, back⟩ := call_cuts ("print".toList ++ blanks) inner behind close
  obtain ⟨front', texts', back'⟩ := call_cuts ("print".toList ++ blanks) (splicedArguments st.first inner) behind close
  refine ⟨guards, splicedBody st _ _, _, pass', limitGuard_ok guarded, ?_,
    Construct.classify_of_print? untargeted found', ?_, ?_, ?_⟩
  · exact run_bind_ok.2 ⟨guards, pass', guarded, run_pure_ok.2 rfl⟩
  · rw [written, whole, front, front']
  · rw [written, whole, back, back']
  · rw [argumentTexts, argumentTexts, written, whole, texts, texts']
    exact splices.parts closed

theorem printed_arguments_two_lines :
    ∃ st : Statement, st.body = "print(sep=f(a, \",\"), # (\n  b)" ∧
      Construct.classify st.body = .ok (.printCall 5 28) ∧
      argumentTexts st.body 5 28 = ["sep=f(a, \",\")".toList, " # (\n  b".toList] ∧
      ∃ guards body close pass', Guards st st.level .start guards pass' ∧
        (printStep st 5 28).run .start =
          .ok (⟨guards ++ [st.own body] ++ st.interior st.level, st.level, []⟩, pass') ∧
        Construct.classify body = .ok (.printCall 5 close) ∧
        body.take 6 = st.body.take 6 ∧ body.drop close = st.body.drop 28 ∧
        Spliced (Probe.tag st.first) (argumentTexts st.body 5 28) (argumentTexts body 5 close) := by
  have call : Construct.classify "print(sep=f(a, \",\"), # (\n  b)" = .ok (.printCall 5 28) := by decide +kernel
  exact ⟨⟨3, 4, 0, [], _, .none, none, [], false, false⟩, rfl, call, by decide +kernel, printed_arguments call .start⟩

end Instrument

end LineProbe
