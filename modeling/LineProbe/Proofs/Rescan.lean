import LineProbe.Proofs.Assembly

/-!
# Finding statements again

A text is `Whole` if a reader keeps it together to its end and not beyond.
-/

namespace LineProbe

open Text

/-! ## The end of a line -/

variable {mode : Mode} {depth : Int} {source : LogicalStatement}

namespace Mode

theorem run_comment (oneLine : '\n' ∉ line) : Mode.comment.run line = .comment := by
  induction line with
  | nil => rfl
  | cons c rest ih =>
    rw [List.mem_cons, not_or] at oneLine
    rw [run_cons, next, if_neg (Ne.symm oneLine.1), ih oneLine.2]

theorem next_of_startsComment (h : mode.startsComment c) : mode.next c = .comment := by
  cases mode with
  | code => simp_all [startsComment, next, afterCode]
  | quoteTwo quote => cases quote <;> simp_all [startsComment, next, afterCode, Quote.char]
  | _ => cases h

theorem next_ne_comment (h : mode.startsComment c = false) (other : mode ≠ .comment) : mode.next c ≠ .comment := by
  cases mode with
  | comment => exact absurd rfl other
  | code =>
    simp only [startsComment, decide_eq_false_iff_not] at h
    simp only [next, afterCode, h, if_false]
    split <;> [simp; split <;> simp]
  | quoteTwo quote =>
    simp only [startsComment, decide_eq_false_iff_not] at h
    simp only [next, afterCode, h, if_false]
    repeat' split
    all_goals simp
  | _ quote =>
    simp only [next, afterShort]
    repeat' split
    all_goals simp

theorem commentStart?_isNone (oneLine : '\n' ∉ line) (other : mode ≠ .comment) :
    (mode.commentStart? line).isNone = decide (mode.run line ≠ .comment) := by
  induction line generalizing mode with
  | nil => simp [commentStart?, other]
  | cons c rest ih =>
    rw [List.mem_cons, not_or] at oneLine
    rw [commentStart?, run_cons]
    split
    · next starts => simp [next_of_startsComment starts, run_comment oneLine.2]
    · next unmarked =>
      rw [Option.isNone_map]
      exact ih oneLine.2 (next_ne_comment (by simpa using unmarked) other)

theorem settled_of_carry (closed : mode.carry = .closed) (other : mode ≠ .comment) : mode.isSettled := by
  cases mode <;> simp_all [carry, isSettled]

theorem settled_before_blanks (blank : ∀ c ∈ blanks, isBlankChar c) (oneLine : '\n' ∉ blanks)
    (h : (mode.run blanks).isSettled) : mode.isSettled := by
  induction blanks generalizing mode with
  | nil => exact h
  | cons c rest ih =>
    rw [List.forall_mem_cons] at blank
    rw [List.mem_cons, not_or] at oneLine
    apply settled_of_next (ih blank.2 oneLine.2 h) (Ne.symm oneLine.1)
    · rintro rfl
      exact absurd blank.1 (by decide)
    · rintro rfl
      exact absurd blank.1 (by decide)

end Mode

namespace Reader

theorem next_newline (reader : Reader) : reader.next '\n' = ⟨reader.mode.carry.mode, reader.depth, false⟩ := by
  have weight : bracketWeight '\n' = 0 := by decide
  simp [next, Mode.next_newline, weight]

theorem run_comment_line {slash : Bool} (oneLine : '\n' ∉ line) :
    ∃ last, (⟨.comment, depth, slash⟩ : Reader).run line = ⟨.comment, depth, last⟩ := by
  induction line generalizing slash with
  | nil => exact ⟨slash, rfl⟩
  | cons c rest ih =>
    rw [List.mem_cons, not_or] at oneLine
    have step : (⟨.comment, depth, slash⟩ : Reader).next c = ⟨.comment, depth, c == '\\'⟩ := by
      simp [next, Mode.next, Mode.readsCode, Ne.symm oneLine.1]
    rw [run_cons, step]
    exact ih oneLine.2

theorem run_line_newline (carry : Carry) (depth : Int) (line : Text) :
    ((⟨carry.mode, depth, false⟩ : Reader).run line).next '\n' =
      ⟨(scan carry line).carry.mode, depth + (scan carry line).delta, false⟩ := by
  rw [next_newline, mode_run, depth_run]
  rfl

end Reader

theorem continues_eq (oneLine : '\n' ∉ line) (depth : Int) :
    continues (scan carry line) (depth + (scan carry line).delta) line =
      ((⟨carry.mode, depth, false⟩ : Reader).run line).keepsOpen := by
  have other : carry.mode ≠ .comment := by cases carry <;> simp [Carry.mode]
  have slash := Reader.slash_run (show (⟨carry.mode, depth, false⟩ : Reader).slash = false from rfl) line
  rw [continues, Reader.keepsOpen, Reader.mode_run, Reader.depth_run, slash, scan,
    Mode.commentStart?_isNone oneLine other]

/-! ## Statements as they are read -/

structure Joined (carry : Carry) (depth : Int) (source : LogicalStatement) (front : Text) : Prop where
  lines : ∀ last, joinLines (source.before ++ [last]) = front ++ last
  enters : carry.mode.run front = source.carryIn.mode
  leaves : (source.carryIn.mode.run source.final).carry = source.carryOut
  held : (⟨carry.mode, depth, false⟩ : Reader).Held (front ++ source.final)
  oneLine : '\n' ∉ source.final

theorem joined_single {first : Int} (oneLine : '\n' ∉ line) :
    Joined carry depth ⟨first, first, [], line, carry, (scan carry line).carry⟩ [] where
  lines _ := rfl
  enters := rfl
  leaves := rfl
  held := Reader.held_of_newline_not_mem oneLine
  oneLine := oneLine

theorem exists_joined (first : Int) (carry : Carry) (depth : Int) (oneLine : ∀ text ∈ line :: rest, '\n' ∉ text) :
    ∃ front, Joined carry depth (assembleFrom first carry depth line rest) front := by
  induction rest generalizing first carry depth line with
  | nil => exact ⟨[], joined_single (oneLine line List.mem_cons_self)⟩
  | cons next rest ih =>
    rw [List.forall_mem_cons] at oneLine
    rw [assembleFrom]
    dsimp only
    split
    · next goesOn =>
      rw [continues_eq oneLine.1] at goesOn
      obtain ⟨front, tail⟩ := ih (first + 1) (scan carry line).carry (depth + (scan carry line).delta) oneLine.2
      refine ⟨line ++ '\n' :: front, ?_, ?_, tail.leaves, ?_, tail.oneLine⟩
      · intro last
        rw [List.cons_append, joinLines_cons _ (by simp), tail.lines]
        simp
      · rw [Mode.run_append, Mode.run_cons, Mode.next_newline]
        exact tail.enters
      · rw [List.append_assoc, List.cons_append, Reader.held_append]
        refine ⟨Reader.held_of_newline_not_mem oneLine.1, fun _ => goesOn, ?_⟩
        rw [Reader.run_line_newline]
        exact tail.held
    · exact ⟨[], joined_single oneLine.1⟩

/-! ## Whole texts -/

structure Whole (text : Text) : Prop where
  held : Reader.start.Held text
  done : (Reader.start.run text).keepsOpen = false
  visible : ∃ blanks c rest, text = blanks ++ c :: rest ∧ (∀ d ∈ blanks, isBlankChar d = true ∧ d ≠ '\n') ∧
    isBlankChar c = false ∧ c ≠ '#'

theorem keepsOpen_of_settled {reader : Reader} (settled : reader.mode.isSettled) (ground : reader.depth = 0)
    (clear : reader.slash = false) : reader.keepsOpen = false := by
  simp [Reader.keepsOpen, Mode.carry_of_settled settled, ground, clear]

theorem whole_of_settles (blank : ∀ d ∈ indentation, isBlankChar d ∧ d ≠ '\n') (settles : Settles body)
    (ends : endsWithChar body '\\' = false) (first : Starts body) : Whole (indentation ++ body) := by
  have indented : Settles (indentation ++ body) :=
    settles.quiet_append (fun d mem => isQuiet_of_isBlankChar (blank d mem).1) fun mem => (blank _ mem).2 rfl
  obtain ⟨c, rest, rfl, notBlank⟩ := first
  have notComment : c ≠ '#' := by
    rintro rfl
    exact Settles.head_ne_comment settles
  refine ⟨indented.held, ?_, indentation, c, rest, rfl, blank, notBlank, notComment⟩
  apply keepsOpen_of_settled indented.settled indented.depth
  rw [Reader.slash_run rfl, endsWithChar_append _ (by simp), ends]

/-! ## Sound statements -/

structure Sound (source : LogicalStatement) : Prop where
  balanced : ∀ n ≤ source.code.length, 0 ≤ Mode.code.bracketDelta (source.code.take n)
  closed : Mode.code.bracketDelta source.code = 0
  ended : source.carryOut = .closed
  unjoined : endsWithChar source.code '\\' = false

theorem finalParts_of_ended (h : source.carryOut = .closed) :
    source.finalParts = stripComment source.carryIn source.final := by
  rw [LogicalStatement.finalParts]
  exact if_neg fun open_ => open_.2 h

theorem finalParts_spec (joined : Joined carry depth source front) (ended : source.carryOut = .closed) :
    ∃ comment, source.final = source.finalParts.1 ++ comment ∧
      (source.carryIn.mode.run source.finalParts.1).isSettled ∧ (comment = [] ∨ ∃ more, comment = '#' :: more) := by
  have other : source.carryIn.mode ≠ .comment := by cases source.carryIn <;> simp [Carry.mode]
  have isNone := Mode.commentStart?_isNone joined.oneLine other
  rw [finalParts_of_ended ended, stripComment]
  cases starts : source.carryIn.mode.commentStart? source.final with
  | none =>
    rw [starts] at isNone
    have leaves := joined.leaves
    rw [ended] at leaves
    exact ⟨[], by simp, Mode.settled_of_carry leaves (of_decide_eq_true isNone.symm), .inl rfl⟩
  | some index =>
    obtain ⟨mark, settled⟩ := commentStart?_eq_some starts
    refine ⟨source.final.drop index, (List.take_append_drop index _).symm, settled, .inr ?_⟩
    obtain ⟨inside, here⟩ := List.getElem?_eq_some_iff.1 mark
    exact ⟨source.final.drop (index + 1), by rw [List.drop_eq_getElem_cons inside, here]⟩

structure Cut (source : LogicalStatement) (blanks comment : Text) : Prop where
  text : source.text = source.code ++ (blanks ++ comment)
  blank : ∀ c ∈ blanks, isBlankChar c = true
  oneLine : '\n' ∉ blanks ++ comment
  settled : (Mode.code.run source.code).isSettled = true
  comment : comment = [] ∨ ∃ more, comment = '#' :: more

theorem exists_cut (ended : source.carryOut = .closed) (joined : Joined .closed 0 source front) :
    ∃ blanks comment, Cut source blanks comment := by
  obtain ⟨comment, final, settled, kind⟩ := finalParts_spec joined ended
  obtain ⟨blanks, trimmed, blank⟩ := trimRight_append_blanks source.finalParts.1
  have code : source.code = front ++ trimRight source.finalParts.1 := joined.lines _
  have last : source.final = trimRight source.finalParts.1 ++ (blanks ++ comment) := by
    rw [← List.append_assoc, trimmed]
    exact final
  have oneLine := joined.oneLine
  rw [last, List.mem_append, not_or] at oneLine
  refine ⟨blanks, comment, ?_, blank, oneLine.2, ?_, kind⟩
  · rw [LogicalStatement.text, LogicalStatement.lines, joined.lines, code, List.append_assoc, ← last]
  · rw [code, Mode.run_append, show Mode.code = Carry.closed.mode from rfl, joined.enters]
    rw [← trimmed, Mode.run_append] at settled
    exact Mode.settled_before_blanks blank (fun mem => oneLine.2 (List.mem_append_left _ mem)) settled

theorem Sound.settles (sound : Sound source) (cut : Cut source blanks comment) (held : Reader.start.Held source.text) :
    Settles source.code := by
  rw [cut.text, Reader.held_append] at held
  refine ⟨⟨?_, ?_, ?_⟩, held.1⟩
  · rw [Reader.above_iff_prefixes (Int.le_refl _)]
    intro n le
    simpa [Reader.start] using sound.balanced n le
  · rw [Reader.depth_run]
    simpa [Reader.start] using sound.closed
  · rw [Reader.mode_run]
    exact cut.settled

theorem Sound.keepsOpen_text (sound : Sound source) (cut : Cut source blanks comment) (settles : Settles source.code) :
    (Reader.start.run source.text).keepsOpen = false := by
  have oneLine := cut.oneLine
  rw [List.mem_append, not_or] at oneLine
  obtain ⟨mode, settled, reached⟩ : ∃ mode, mode.isSettled ∧
      Reader.start.run (source.code ++ blanks) = ⟨mode, 0, false⟩ := by
    rw [Reader.run_append, settles.takes.run, sound.unjoined]
    by_cases empty : blanks = []
    · subst empty
      exact ⟨_, settles.settled, rfl⟩
    · have quiet (c : Char) (mem : c ∈ blanks) := isQuiet_of_isBlankChar (cut.blank c mem)
      exact ⟨.code, rfl, Reader.run_quiet settles.settled quiet empty⟩
  rw [cut.text, ← List.append_assoc, Reader.run_append, reached]
  rcases cut.comment with rfl | ⟨more, rfl⟩
  · exact keepsOpen_of_settled settled rfl rfl
  · rw [List.mem_cons, not_or] at oneLine
    have enter : (⟨mode, 0, false⟩ : Reader).next '#' = ⟨.comment, 0, false⟩ := by
      have starts : mode.startsComment '#' := by cases mode <;> simp_all [Mode.startsComment, Mode.isSettled]
      have unread : mode.readsCode '#' = false := by cases mode <;> simp_all [Mode.readsCode, Mode.isSettled]
      simp [Reader.next, Mode.next_of_startsComment starts, unread]
    obtain ⟨last, inside⟩ := Reader.run_comment_line oneLine.2.2
    rw [Reader.run_cons, enter, inside]
    rfl

theorem Sound.assembled (visible : isBlankLine line = false) (oneLine : ∀ text ∈ line :: rest, '\n' ∉ text)
    (sound : Sound (assemble cursor line rest)) :
    Whole (assemble cursor line rest).text ∧ Settles (assemble cursor line rest).body := by
  obtain ⟨front, joined⟩ := exists_joined cursor .closed 0 oneLine
  change Joined .closed 0 (assemble cursor line rest) front at joined
  have text : (assemble cursor line rest).text = front ++ (assemble cursor line rest).final := joined.lines _
  have held : Reader.start.Held (assemble cursor line rest).text := text ▸ joined.held
  obtain ⟨blanks, comment, cut⟩ := exists_cut sound.ended joined
  have settles := sound.settles cut held
  obtain ⟨c, tail, code, notBlank, notComment⟩ := code_assemble cursor rest visible
  have indentation (d : Char) (mem : d ∈ leadingBlanks line) : isBlankChar d ∧ d ≠ '\n' := by
    refine ⟨isBlankChar_of_mem_leadingBlanks mem, ?_⟩
    rintro rfl
    exact oneLine line List.mem_cons_self ((List.takeWhile_prefix _).subset mem)
  refine ⟨⟨held, sound.keepsOpen_text cut settles, leadingBlanks line, c, tail ++ (blanks ++ comment), ?_, indentation,
    notBlank, notComment⟩, ?_⟩
  · rw [cut.text, code, List.append_assoc, List.cons_append]
  · rw [← leadingBlanks_append_body_assemble cursor rest visible] at settles
    exact settles.behind_quiet fun d mem => isQuiet_of_isBlankChar (indentation d mem).1

/-! ## Whole texts among lines -/

theorem length_before_assembleFrom (oneLine : ∀ text ∈ line :: rest, '\n' ∉ text)
    (held : (⟨carry.mode, depth, false⟩ : Reader).Held (joinLines (line :: rest)))
    (done : ((⟨carry.mode, depth, false⟩ : Reader).run (joinLines (line :: rest))).keepsOpen = false) (more : List Text) :
    (assembleFrom first carry depth line (rest ++ more)).before.length = rest.length := by
  induction rest generalizing first carry depth line with
  | nil =>
    have alone : joinLines [line] = line := rfl
    rw [alone] at done
    cases more with
    | nil => rfl
    | cons next more =>
      rw [List.nil_append, assembleFrom]
      dsimp only
      rw [continues_eq (oneLine line List.mem_cons_self), done]
      rfl
  | cons next rest ih =>
    rw [List.forall_mem_cons] at oneLine
    rw [joinLines_cons line (by simp)] at held done
    rw [Reader.run_append, Reader.run_cons, Reader.run_line_newline] at done
    obtain ⟨-, goesOn, later⟩ := Reader.held_append.1 held
    rw [Reader.run_line_newline] at later
    rw [List.cons_append, assembleFrom]
    dsimp only
    rw [continues_eq oneLine.1, goesOn rfl, if_pos rfl]
    exact congrArg (· + 1) (ih oneLine.2 later done)

structure OneStatement (lines : List Text) : Prop where
  ne_nil : lines ≠ []
  visible : ∀ line ∈ lines.head?, isBlankLine line = false
  extent : ∀ first line rest more, lines = line :: rest →
    (assemble first line (rest ++ more)).before.length = rest.length

theorem Whole.oneStatement (h : Whole text) : OneStatement (splitNewlines text) := by
  obtain ⟨blanks, c, rest, whole, blank, notBlank, notComment⟩ := h.visible
  have inLine : '\n' ∉ blanks ++ [c] := by
    rw [List.mem_append, List.mem_singleton, not_or]
    refine ⟨fun mem => (blank _ mem).2 rfl, ?_⟩
    rintro rfl
    exact absurd notBlank (by decide)
  obtain ⟨tail, others, lines⟩ := splitAtChar_head inLine rest
  have joined : joinLines (splitNewlines text) = text := join_splitAtChar '\n' text
  have oneLine : ∀ line ∈ splitNewlines text, '\n' ∉ line := fun line => not_mem_of_mem_splitAtChar
  have first : splitNewlines text = (blanks ++ c :: tail) :: others := by
    rw [whole, splitNewlines, show blanks ++ c :: rest = (blanks ++ [c]) ++ rest by simp, lines]
    simp
  refine ⟨by simp [first], ?_, ?_⟩
  · rw [first]
    rintro _ ⟨⟩
    rw [isBlankLine, trimLeft_append_of_blank fun d mem => (blank d mem).1, trimLeft_of_head (by simpa using notBlank)]
    simpa using notComment
  · intro start line others more same
    rw [same] at joined oneLine
    exact length_before_assembleFrom oneLine (joined.symm ▸ h.held) (joined.symm ▸ h.done) more

def startsFrom (index : Int) : List (List Text) → List Int
  | [] => []
  | block :: blocks => index :: startsFrom (index + block.length) blocks

theorem statementHeads_flatten {script : List Text} {blocks : List (List Text)} {index : Int} (nonneg : 0 ≤ index)
    (one : ∀ block ∈ blocks, OneStatement block) :
    ∃ heads, (statementHeads script index blocks.flatten).mapM id = .ok heads ∧
      heads.map Prod.fst = startsFrom index blocks := by
  induction blocks generalizing index with
  | nil => exact ⟨[], by rw [List.flatten_nil, statementHeads]; rfl, rfl⟩
  | cons block blocks ih =>
    rw [List.forall_mem_cons] at one
    obtain ⟨line, rest, rfl⟩ := List.exists_cons_of_ne_nil one.1.ne_nil
    have length := one.1.extent index line rest blocks.flatten rfl
    have visible := one.1.visible line rfl
    have last : (assemble index line (rest ++ blocks.flatten)).last + 1 = index + ((line :: rest).length : Nat) := by
      rw [last_assemble, length, List.length_cons]
      omega
    obtain ⟨heads, found, starts⟩ := ih (show 0 ≤ index + ((line :: rest).length : Nat) by omega) one.2
    refine ⟨(index, line) :: heads, ?_, by rw [List.map_cons, starts]; rfl⟩
    rw [List.flatten_cons, List.cons_append, statementHeads, if_neg (by simp [visible]),
      statementIn_of_nonneg nonneg]
    dsimp only
    rw [extent_assemble, length, List.drop_left, last, List.mapM_cons, found]
    rfl

theorem statementStarts_flatten (one : ∀ block ∈ blocks, OneStatement block) :
    statementStarts blocks.flatten 0 blocks.flatten.length = .ok (startsFrom 0 blocks) := by
  obtain ⟨heads, found, starts⟩ := @statementHeads_flatten blocks.flatten blocks 0 (Int.le_refl 0) one
  have along : linesAlong blocks.flatten 0 blocks.flatten.length = blocks.flatten := by
    rw [linesAlong, show ((0 : Int) + blocks.flatten.length).toNat = blocks.flatten.length by omega, List.drop_take,
      List.drop_left, show (((blocks.flatten.length : Int) + blocks.flatten.length).toNat - blocks.flatten.length) =
        blocks.flatten.length by omega, List.take_length]
  rw [statementStarts, Int.min_self, if_neg (by omega), along, found, ← starts]
  rfl

end LineProbe
