import LineProbe.Proofs.Pieces
import LineProbe.Proofs.Purge

/-!
# Lines without blocking calls

Lines that are silent one by one are silent together if none leaves a string open and none that ends in the name of a
blocking call stands before a parenthesis.
-/

namespace LineProbe

open Text

/-! ## Open strings -/

namespace Mode

theorem carry_next {mode : Mode} (closed : mode.carry = .closed) (single : c ≠ '\'') (double : c ≠ '"') :
    (mode.next c).carry = .closed := by
  have code : (afterCode c).carry = .closed := by
    rw [afterCode, if_neg single, if_neg double]
    split <;> rfl
  cases mode with
  | code => exact code
  | comment =>
    rw [next]
    split <;> rfl
  | quoteTwo quote =>
    have other : c ≠ quote.char := by cases quote <;> assumption
    rw [next, if_neg other]
    exact code
  | _ => cases closed

theorem carry_of_next {mode : Mode} (closed : (mode.next c).carry = .closed) (single : c ≠ '\'') (double : c ≠ '"') :
    mode.carry = .closed := by
  have other (quote : Quote) : c ≠ quote.char := by cases quote <;> assumption
  have short (quote : Quote) : (afterShort quote c).carry = .short quote := by
    rw [afterShort]
    split
    · rfl
    · rw [if_neg (other quote)]
      rfl
  cases mode with
  | code | comment | quoteTwo => rfl
  | quoteOne quote =>
    rw [next, if_neg (other quote), short] at closed
    cases closed
  | short quote =>
    rw [next, short] at closed
    cases closed
  | long quote | longOne quote | longTwo quote =>
    rw [next, if_neg (other quote)] at closed
    split at closed <;> cases closed
  | shortEscape | longEscape => cases closed

theorem carry_run {mode : Mode} (single : '\'' ∉ text) (double : '"' ∉ text) :
    (mode.run text).carry = .closed ↔ mode.carry = .closed := by
  induction text generalizing mode with
  | nil => rfl
  | cons c text ih =>
    rw [List.mem_cons, not_or] at single double
    rw [run_cons, ih single.2 double.2]
    exact ⟨fun h => carry_of_next h (Ne.symm single.1) (Ne.symm double.1),
      fun h => carry_next h (Ne.symm single.1) (Ne.symm double.1)⟩

theorem run_quiet_code (quiet : ∀ c ∈ text, isQuiet c) : Mode.code.run text = .code := by
  have reached := Reader.mode_run Reader.start text
  rw [Reader.run_start_quiet quiet] at reached
  exact reached.symm

theorem run_blanks_code (blank : ∀ c ∈ blanks, isBlankChar c) : Mode.code.run blanks = .code :=
  run_quiet_code fun c mem => isQuiet_of_isBlankChar (blank c mem)

theorem carry_run_blanks {mode : Mode} (blank : ∀ c ∈ blanks, isBlankChar c) :
    (mode.run blanks).carry = .closed ↔ mode.carry = .closed :=
  carry_run (fun mem => absurd (blank _ mem) (by decide)) fun mem => absurd (blank _ mem) (by decide)

end Mode

/-! ## Calm texts -/

structure Calm (behind text : Text) : Prop where
  silent : Silent behind none .code text
  ended : (Mode.code.run text).carry = .closed

def Shut (text : Text) : Prop :=
  ∃ c rest, trimLeft text = c :: rest ∧ c ≠ '('

theorem Shut.not_opensParen (h : Shut text) (rest : Text) : ¬ OpensParen (text ++ rest) := by
  obtain ⟨c, more, trimmed, other⟩ := h
  have whole : text ++ rest = leadingBlanks text ++ c :: (more ++ rest) := by
    rw [← List.cons_append, ← trimmed, ← List.append_assoc, leadingBlanks_append_trimLeft]
  rw [OpensParen, whole, trimLeft_append_of_blank fun c => isBlankChar_of_mem_leadingBlanks,
    trimLeft_of_head (by rintro c ⟨⟩; exact trimLeft_eq_cons trimmed)]
  simpa using other

theorem Shut.blanks_append (h : Shut text) (blank : ∀ c ∈ blanks, isBlankChar c) : Shut (blanks ++ text) := by
  obtain ⟨c, rest, trimmed, other⟩ := h
  exact ⟨c, rest, by rw [trimLeft_append_of_blank blank, trimmed], other⟩

theorem stops_newline (rest : Text) : Stops ('\n' :: rest) := by
  rintro c ⟨⟩
  decide

theorem not_opens_newline (rest : Text) : ¬ Opens ('\n' :: rest) :=
  fun opens => absurd opens.word_head (by decide)

inductive Hushed : List Text → Prop where
  | nil : Hushed []
  | apart {texts rest : List Text} (nonempty : texts ≠ []) (calm : Calm ['('] (joinLines texts)) (later : Hushed rest) :
    Hushed (texts ++ rest)
  | followed {texts rest : List Text} {next : Text} (nonempty : texts ≠ []) (calm : Calm [] (joinLines texts))
    (shut : Shut next) (later : Hushed (next :: rest)) : Hushed (texts ++ next :: rest)

namespace Hushed

theorem cons {text : Text} {rest : List Text} (calm : Calm ['('] text) (later : Hushed rest) : Hushed (text :: rest) :=
  .apart (by simp) (show Calm ['('] (joinLines [text]) from calm) later

theorem before (calm : Calm [] text) (shut : Shut next) (later : Hushed (next :: rest)) :
    Hushed (text :: next :: rest) :=
  .followed (by simp) (show Calm [] (joinLines [text]) from calm) shut later

theorem append (h : Hushed first) (h' : Hushed last) : Hushed (first ++ last) := by
  induction h with
  | nil => exact h'
  | apart nonempty calm _ ih =>
    rw [List.append_assoc]
    exact .apart nonempty calm ih
  | followed nonempty calm shut _ ih =>
    rw [List.append_assoc]
    exact .followed nonempty calm shut ih

theorem of_calm (h : ∀ text ∈ texts, Calm ['('] text) : Hushed texts := by
  induction texts with
  | nil => exact .nil
  | cons text texts ih =>
    rw [List.forall_mem_cons] at h
    exact .cons h.1 (ih h.2)

end Hushed

theorem silent_newline (ended : (Mode.code.run first).carry = .closed) (front : Silent ('\n' :: last) none .code first)
    (back : Silent [] none .code last) : Silent [] none .code (first ++ '\n' :: last) := by
  rw [silent_append, List.append_nil, silent_cons, Mode.next_newline, ended]
  exact ⟨front, fun _ _ => not_opens_newline _, back.of_none⟩

theorem silent_joinLines (h : Hushed texts) : Silent [] none .code (joinLines texts) := by
  induction h with
  | nil => exact silent_nil _ _ _
  | @apart texts rest nonempty calm _ ih =>
    by_cases last : rest = []
    · subst last
      rw [List.append_nil]
      exact calm.silent.before (by rintro c ⟨⟩)
    · rw [joinLines_append nonempty last]
      exact silent_newline calm.ended (calm.silent.before (stops_newline _)) ih
  | @followed texts rest next nonempty calm shut _ ih =>
    have follows : ¬ OpensParen ('\n' :: joinLines (next :: rest)) := by
      obtain ⟨more, whole⟩ : ∃ more, joinLines (next :: rest) = next ++ more := by
        cases rest with
        | nil => exact ⟨[], by simp [joinLines, join]⟩
        | cons text rest => exact ⟨_, joinLines_cons next (by simp)⟩
      rw [whole, ← List.cons_append, ← List.singleton_append]
      exact (shut.blanks_append (by decide)).not_opensParen more
    rw [joinLines_append nonempty (by simp)]
    exact silent_newline calm.ended (calm.silent.inert (stops_newline _) follows) ih

/-! ## Putting texts together -/

namespace Silent

theorem alone (h : Silent behind previous mode text) : Silent [] previous mode text :=
  h.inert (by rintro c ⟨⟩) (by simp [OpensParen, trimLeft])

theorem of_mark (h : Silent behind previous mode (text ++ [c])) (notBlank : isBlankChar c = false)
    (other : joins c = false) (blank : ∀ d ∈ blanks, isBlankChar d) :
    Silent behind' previous mode (text ++ c :: blanks) := by
  have letters : ∀ d ∈ "edst".toList, joins d := by decide +kernel
  rw [List.append_cons text c blanks, silent_append]
  refine ⟨h.of_last notBlank (fun mem => ?_) (fun joined => ?_), silent_blanks blank⟩
  · rw [letters c mem] at other
    cases other
  · rw [joined] at other
    cases other

end Silent

theorem silent_blanks_append (blank : ∀ c ∈ blanks, isBlankChar c) :
    Silent behind none .code (blanks ++ text) ↔ Silent behind none .code text := by
  rw [silent_append, Mode.run_blanks_code blank]
  constructor
  · rintro ⟨-, later⟩
    refine later.behind_of fun _ => ?_
    cases last : blanks.getLast? with
    | none => rfl
    | some c => exact joins_of_isBlankChar (blank c (List.mem_of_getLast? last))
  · intro later
    exact ⟨silent_blanks blank, later.of_none⟩

theorem calm_blanks_append (blank : ∀ c ∈ blanks, isBlankChar c) : Calm behind (blanks ++ text) ↔ Calm behind text := by
  have same : Mode.code.run (blanks ++ text) = Mode.code.run text := by
    rw [Mode.run_append, Mode.run_blanks_code blank]
  constructor
  · intro h
    exact ⟨(silent_blanks_append blank).1 h.silent, same ▸ h.ended⟩
  · intro h
    exact ⟨(silent_blanks_append blank).2 h.silent, same ▸ h.ended⟩

namespace Calm

theorem indented (h : Calm behind text) (blank : ∀ c ∈ indentation, isBlankChar c) :
    Calm behind (indentation ++ text) :=
  (calm_blanks_append blank).2 h

theorem alone (h : Calm behind text) : Calm [] text :=
  ⟨h.silent.alone, h.ended⟩

theorem of_mark (h : Calm behind (text ++ [c])) (notBlank : isBlankChar c = false) (other : joins c = false) :
    Calm behind' (text ++ [c]) :=
  ⟨h.silent.of_mark notBlank other (List.forall_mem_nil _), h.ended⟩

theorem parenthesized (h : Calm [] text) : Calm behind ('(' :: (text ++ [')'])) := by
  refine ⟨silent_parenthesized rfl h.silent.of_none, ?_⟩
  rw [Mode.run_cons, Mode.run_append, show Mode.code.next '(' = .code from rfl,
    Mode.carry_run (by decide) (by decide)]
  exact h.ended

theorem after_mark (plain : Plain (front ++ c :: blanks)) (notBlank : isBlankChar c = false) (other : joins c = false)
    (blank : ∀ d ∈ blanks, isBlankChar d) (h : Calm behind text) : Calm behind (front ++ c :: blanks ++ text) := by
  have reached : Mode.code.run (front ++ c :: blanks) = .code := Mode.run_quiet_code fun d mem => (plain d mem).1
  have free : '(' ∉ front ++ [c] := by
    intro mem
    refine paren_not_mem_of_plain plain ?_
    rw [List.append_cons front c blanks]
    exact List.mem_append_left _ mem
  refine ⟨silent_append.2 ⟨(silent_plain free).of_mark notBlank other blank, ?_⟩, ?_⟩
  · rw [reached]
    exact h.silent.of_none
  · rw [Mode.run_append, reached]
    exact h.ended

theorem binding (temp : Temp) (h : Calm behind text) : Calm behind (temp.name ++ " = ".toList ++ text) := by
  have front : temp.name ++ " = ".toList = (temp.name ++ [' ']) ++ '=' :: [' '] := by
    rw [show " = ".toList = [' ', '=', ' '] by decide +kernel]
    simp
  have plain : Plain (temp.name ++ " = ".toList) := plain_append.2 ⟨plain_tempName temp, by decide⟩
  rw [front] at plain ⊢
  exact h.after_mark plain (by decide) (by decide) (by decide)

end Calm

/-! ## Lines that are put in -/

theorem isWordChar_of_isDigit (digit : c.isDigit) : isWordChar c := by
  have ascii : c.toNat < 0x80 := Nat.lt_of_le_of_lt (Char.isDigit_iff_toNat.1 digit).2 (by decide)
  rw [isWordChar, isAlphanumeric, if_pos ascii, Char.isAlphanum, digit, Bool.or_true, Bool.or_true]

theorem Silent.of_digit (h : Silent [] previous mode (text ++ [c])) (digit : c.isDigit) :
    Silent ['('] previous mode (text ++ [c]) := by
  have letters : ∀ d ∈ "edst".toList, d.isDigit = false := by decide +kernel
  have notBlank : isBlankChar c = false := isBlankChar_of_isWordChar (isWordChar_of_isDigit digit)
  refine h.of_last notBlank (fun mem => ?_) fun _ => by rintro c ⟨⟩; decide
  rw [letters c mem] at digit
  cases digit

theorem exists_last_tempName (temp : Temp) : ∃ front c, temp.name = front ++ [c] ∧ c.isDigit := by
  have nonempty : ofNat temp.number ≠ [] := Nat.toDigits_ne_nil
  obtain ⟨stem, named⟩ : ∃ stem, temp.name = stem ++ ofNat temp.number := ⟨_, rfl⟩
  refine ⟨stem ++ (ofNat temp.number).dropLast, (ofNat temp.number).getLast nonempty, ?_,
    isDigit_of_mem_ofNat (List.getLast_mem nonempty)⟩
  rw [named, List.append_assoc, List.dropLast_concat_getLast nonempty]

theorem silent_tempName (plain : Plain front) (temp : Temp) : Silent ['('] previous mode (front ++ temp.name) := by
  obtain ⟨stem, c, named, digit⟩ := exists_last_tempName temp
  have free : '(' ∉ front ++ temp.name := paren_not_mem_of_plain (plain_append.2 ⟨plain, plain_tempName temp⟩)
  rw [named, ← List.append_assoc] at free ⊢
  exact (silent_plain free).of_digit digit

theorem silent_shown (free : '(' ∉ first) (reached : Mode.code.run first = .code) (plain : Plain payload) :
    Silent behind previous .code
      ("print".toList ++ '(' :: ((first ++ (" + str".toList ++ '(' :: (payload ++ [')']))) ++ [')'])) := by
  have shut : Shut " + str".toList := ⟨'+', " str".toList, by decide +kernel, by decide⟩
  refine silent_call (silent_of_calls (by decide +kernel)) (by decide) (silent_append.2 ⟨?_, ?_⟩)
  · rw [List.append_nil]
    exact silent_of_no_paren free (by rintro c ⟨⟩; decide) (shut.not_opensParen _)
  · rw [reached]
    exact silent_call (silent_of_calls (by decide +kernel)) (by decide) (silent_plain (paren_not_mem_of_plain plain))

theorem Reader.Takes.mode_run (h : Reader.start.Takes text Reader.start) : Mode.code.run text = .code := by
  have reached := Reader.mode_run Reader.start text
  rw [h.run] at reached
  exact reached.symm

theorem paren_not_mem_quoted (plain : Plain text) : '(' ∉ '"' :: (text ++ ['"']) := by
  simp only [List.mem_cons, List.mem_append, not_or]
  exact ⟨by decide, paren_not_mem_of_plain plain, by decide⟩

theorem paren_not_mem_tag (line : Int) : '(' ∉ Probe.tag line := by
  simp only [Probe.tag, List.mem_append, not_or]
  exact ⟨⟨by decide, paren_not_mem_of_plain (plain_ofInt line)⟩, by decide⟩

theorem Injection.Plain.silent {what : Injection} (h : what.Plain) (origin : Int) :
    Silent ['('] none .code (what.text origin) := by
  have ground : (0 : Int) ≤ 0 := Int.le_refl 0
  have tag : Mode.code.run (Probe.tag origin) = .code := (Reader.takes_tag ground origin).mode_run
  have name {name arguments : Text} (harmless : blockingCalls (name ++ ['(']) = []) (plain : LineProbe.Plain name)
      (free : '(' ∉ arguments) : Silent ['('] none .code (name ++ '(' :: (arguments ++ [')'])) :=
    silent_call (silent_of_calls harmless) plain (silent_plain free)
  cases what with
  | probe payload =>
    cases payload with
    | none =>
      show Silent ['('] none .code (Probe.bare origin)
      rw [Reader.bare_eq]
      exact name (by decide +kernel) (by decide) (paren_not_mem_tag origin)
    | some payload =>
      show Silent ['('] none .code (Probe.showing origin payload)
      rw [Reader.showing_eq]
      exact silent_shown (paren_not_mem_tag origin) tag (h payload rfl)
  | parameter param =>
    have inside : LineProbe.Plain (ofInt origin ++ ":".toList ++ param ++ ": ".toList) := by
      simp only [plain_append]
      exact ⟨⟨⟨plain_ofInt origin, by decide⟩, h⟩, by decide⟩
    show Silent ['('] none .code (Probe.parameter origin param)
    rw [Reader.parameter_eq]
    exact silent_shown (paren_not_mem_quoted inside) (Reader.takes_string ground (by simp) inside).mode_run h
  | mark key =>
    show Silent ['('] none .code (Probe.mark key)
    rw [Reader.mark_eq]
    exact name (by decide +kernel) (by decide) (paren_not_mem_quoted (plain_ofInt key))
  | enter =>
    show Silent ['('] none .code (Probe.enter origin)
    rw [Reader.enter_eq]
    exact name (by decide +kernel) (by decide) (paren_not_mem_quoted (plain_ofInt origin))
  | limitGuard site limit => exact silent_guardCall (plain_siteName site) origin limit
  | update target operator temp =>
    refine silent_tempName ?_ temp
    simp only [plain_append]
    exact ⟨⟨⟨h.1, by decide⟩, h.2.1⟩, by decide⟩
  | giveBack temp =>
    cases temp with
    | none => exact silent_of_calls (show blockingCalls ("return".toList ++ ['(']) = [] by decide +kernel)
    | some temp => exact silent_tempName (show LineProbe.Plain "return ".toList by decide) temp
  | pass => exact silent_of_calls (show blockingCalls ("pass".toList ++ ['(']) = [] by decide +kernel)
  | callMock => cases h

theorem Injection.Plain.calm {what : Injection} (h : what.Plain) (origin : Int) : Calm ['('] (what.text origin) := by
  refine ⟨h.silent origin, ?_⟩
  rw [(h.takes origin).mode_run]
  rfl

theorem calm_callMock (temp : Temp) (h : Calm [] arguments) (origin : Int) :
    Calm ['('] (Injection.text origin (.callMock temp arguments)) := by
  have plain := plain_tempName temp
  have whole : Injection.text origin (.callMock temp arguments) = temp.name ++ '(' :: (arguments ++ [')']) := by
    show temp.name ++ "(".toList ++ arguments ++ ")".toList = _
    rw [List.append_assoc, List.append_assoc]
    rfl
  rw [whole]
  have harmless : Silent ['('] none .code ([] ++ temp.name) := silent_tempName (by decide) temp
  have inside : Calm [] ('(' :: (arguments ++ [')'])) := h.parenthesized
  refine ⟨silent_call harmless plain h.silent.of_none, ?_⟩
  rw [Mode.run_append, Mode.run_quiet_code fun c mem => (plain c mem).1]
  exact inside.ended

theorem shut_probe (config : IndentConfig) (level : Nat) (payload : Option Text) (origin : Int) :
    Shut (Piece.text config (.injected level (.probe payload) origin)) := by
  have shut : Shut (Injection.text origin (.probe payload)) := by
    cases payload <;> exact ⟨'p', _, rfl, by decide⟩
  exact shut.blanks_append fun c mem => (blank_render config level c mem).1

theorem calm_injected (config : IndentConfig) (level : Nat) (h : what.Plain) (origin : Int) :
    Calm ['('] (Piece.text config (.injected level what origin)) :=
  (h.calm origin).indented fun c mem => (blank_render config level c mem).1

end LineProbe
