import LineProbe.Proofs.Recognition
import LineProbe.Safety.Blocking
import Mathlib.Data.List.Induction

/-!
# Codes that agree outside of operands

An operand is a call that waits for input, or a bracketed value that stands for one.
-/

namespace LineProbe

open Text

/-! ## Operands -/

def joins (c : Char) : Bool :=
  isWordChar c || c == '.'

variable {reader : Reader}

theorem joins_of_isBlankChar (blank : isBlankChar c) : joins c = false := by
  have notDot : c ≠ '.' := by
    rintro rfl
    exact absurd blank (by decide)
  simp [joins, isWordChar_of_isBlankChar blank, notDot]

inductive Operand : Text → Prop where
  | intro {name blanks inner : Text} {close : Char} (named : name = [] ∨ name ∈ blockingNames)
    (blank : ∀ c ∈ blanks, isBlankChar c = true) (closed : Closed inner) (closes : isCloser close = true) :
    Operand (name ++ (blanks ++ '(' :: (inner ++ [close])))

inductive Enclosed : Text → Prop where
  | intro (inner : Text) : Enclosed ('(' :: (inner ++ [')']))

theorem Enclosed.getLast? (h : Enclosed text) : ∃ c, text.getLast? = some c ∧ isCloser c := by
  cases h with
  | intro inner => exact ⟨')', by rw [← List.cons_append, List.getLast?_concat], rfl⟩

theorem Enclosed.starts (h : Enclosed text) : Starts text := by
  cases h with
  | intro inner => exact ⟨'(', _, rfl, by decide⟩

inductive Bracketed : Text → Prop where
  | intro {inner : Text} (closed : Closed inner) : Bracketed ('(' :: (inner ++ [')']))

theorem Bracketed.enclosed (h : Bracketed text) : Enclosed text := by
  cases h with
  | intro => exact .intro _

theorem Bracketed.operand {text : Text} (h : Bracketed text) : Operand text := by
  cases h with
  | @intro inner closed =>
    show Operand ([] ++ ([] ++ '(' :: (inner ++ [')'])))
    exact .intro (.inl rfl) (by simp) closed rfl

theorem joins_of_mem_blockingNames (h : name ∈ blockingNames) (mem : c ∈ name) : joins c := by
  have all : ∀ name ∈ blockingNames, ∀ c ∈ name, joins c := by decide
  exact all name h c mem

theorem Operand.before (named : name = [] ∨ name ∈ blockingNames) (blank : ∀ c ∈ blanks, isBlankChar c)
    (mem : c ∈ name ++ blanks) : Construct.isTargetChar c := by
  rcases List.mem_append.1 mem with inName | inBlanks
  · rcases named with rfl | named
    · cases inName
    · have := joins_of_mem_blockingNames named inName
      simp only [joins] at this
      simp [Construct.isTargetChar, this]
  · exact Construct.isTargetChar_of_isBlankChar (blank c inBlanks)

def Passed (text : Text) : Prop :=
  ∀ reader : Reader, reader.mode.isSettled = true → reader.run text = ⟨.code, reader.depth, false⟩

theorem Operand.run (h : Operand text) (settled : reader.mode.isSettled) :
    reader.run text = ⟨.code, reader.depth, false⟩ := by
  cases h with
  | @intro name blanks inner close named blank closed closes =>
    have inside {reader : Reader} (settled : reader.mode.isSettled) :
        reader.run ('(' :: (inner ++ [close])) = ⟨.code, reader.depth, false⟩ := by
      obtain ⟨mode, slash, settled', reached⟩ := Reader.run_closed closed (reader.depth + 1) false
      rw [Reader.run_cons, Reader.next_opener settled rfl, Reader.run_append, reached, Reader.run_cons,
        Reader.next_closer settled' closes]
      simp
    rw [← List.append_assoc, Reader.run_append]
    by_cases empty : name ++ blanks = []
    · rw [empty]
      exact inside settled
    · have quiet (c : Char) (mem : c ∈ name ++ blanks) := Construct.isQuiet_of_isTargetChar (Operand.before named blank mem)
      rw [Reader.run_quiet settled quiet empty]
      exact inside rfl

theorem Operand.mode_run (h : Operand text) {mode : Mode} (settled : mode.isSettled) : mode.run text = .code := by
  have reached := Reader.mode_run ⟨mode, 0, false⟩ text
  rw [h.run settled] at reached
  exact reached.symm

theorem Operand.above (h : Operand text) (settled : reader.mode.isSettled) (ground : 0 ≤ reader.depth) :
    reader.Above text := by
  cases h with
  | @intro name blanks inner close named blank closed closes =>
    have quiet (c : Char) (mem : c ∈ name ++ blanks) := Construct.isQuiet_of_isTargetChar (Operand.before named blank mem)
    rw [← List.append_assoc, Reader.above_append]
    refine ⟨Reader.above_quiet settled ground quiet, ?_⟩
    have paren : isOpener '(' := rfl
    by_cases empty : name ++ blanks = []
    · rw [empty]
      exact (Reader.takes_brackets settled ground paren closes closed).above
    · have bracketed : (⟨.code, reader.depth, false⟩ : Reader).Takes _ _ :=
        Reader.takes_brackets rfl ground paren closes closed
      rw [Reader.run_quiet settled quiet empty]
      exact bracketed.above

theorem Operand.depthRun (h : Operand text) {mode : Mode} (settled : mode.isSettled) (depth : Nat) :
    mode.depthRun depth text = depth := by
  have above : (⟨mode, (depth : Int), false⟩ : Reader).Above text := h.above settled (by simp)
  have level := Reader.depth_run_of_above above rfl
  rw [h.run settled] at level
  exact (Int.ofNat_inj.1 level).symm

theorem Operand.ne_nil (h : Operand text) : text ≠ [] := by
  cases h with
  | intro => simp

theorem Operand.getLast? (h : Operand text) : ∃ c, text.getLast? = some c ∧ isCloser c := by
  cases h with
  | @intro name blanks inner close named blank closed closes =>
    refine ⟨close, ?_, closes⟩
    rw [List.getLast?_append, List.getLast?_append, ← List.cons_append, List.getLast?_concat]
    rfl

theorem Operand.head? (h : Operand text) : ∃ c, text.head? = some c ∧ (Construct.isTargetChar c ∨ c = '(') := by
  cases h with
  | @intro name blanks inner close named blank closed closes =>
    rw [← List.append_assoc]
    cases before : name ++ blanks with
    | nil => exact ⟨'(', rfl, .inr rfl⟩
    | cons c rest => exact ⟨c, rfl, .inl (Operand.before named blank (by rw [before]; exact List.mem_cons_self))⟩

theorem Operand.not_front (h : Operand first) (same : first ++ rest = front ++ mark :: behind) (plain : '(' ∉ front)
    (other : Construct.isTargetChar mark = false) (notParen : mark ≠ '(') : False := by
  cases h with
  | @intro name blanks inner close named blank closed closes =>
    rw [← List.append_assoc, List.append_assoc, List.cons_append] at same
    rcases List.append_eq_append_iff.1 same with ⟨between, front_, tail⟩ | ⟨between, before, tail⟩
    · cases between with
      | nil => exact notParen (List.cons.inj tail).1.symm
      | cons c between =>
        have := (List.cons.inj tail).1
        exact plain (by simp [front_, ← this])
    · cases between with
      | nil => exact notParen (List.cons.inj tail).1
      | cons c between =>
        have := (List.cons.inj tail).1
        rw [this, Operand.before named blank (by simp [before])] at other
        cases other

def operandWords : List Text :=
  ["", "sys", "getpass", "input"]

theorem Operand.firstWord (h : Operand text) (rest : Text) : Construct.firstWord (text ++ rest) ∈ operandWords := by
  cases h with
  | @intro name blanks inner close named blank closed closes =>
    have stop : ∀ c ∈ (blanks ++ '(' :: (inner ++ [close]) ++ rest).head?, isWordChar c = false := by
      intro c first
      have behind : isBlankChar c ∨ c = '(' := by
        cases blanks with
        | nil => exact .inr (Option.some.inj first).symm
        | cons d blanks => exact .inl (Option.some.inj first ▸ blank d List.mem_cons_self)
      rcases behind with white | rfl
      · exact isWordChar_of_isBlankChar white
      · decide
    rw [Construct.firstWord, List.append_assoc, nameAtStart_append _ stop]
    rcases named with rfl | named
    · exact List.mem_cons_self
    · have all : ∀ name ∈ blockingNames, nameAtStart name ∈ operandWords := by decide +kernel
      exact all name named

/-! ## Codes that agree outside of operands -/

inductive Swapped (New : Text → Prop) : (joined : Bool) → Mode → Text → Text → Prop where
  | nil {joined : Bool} {mode : Mode} : Swapped New joined mode [] []
  | same {joined : Bool} {mode : Mode} {c : Char} {rest rest' : Text}
    (later : Swapped New (joins c) (mode.next c) rest rest') : Swapped New joined mode (c :: rest) (c :: rest')
  | operand {mode : Mode} {first first' rest rest' : Text} (settled : mode.isSettled = true)
    (old : Operand first) (new : New first') (later : Swapped New false .code rest rest') :
    Swapped New false mode (first ++ rest) (first' ++ rest')

namespace Swapped

theorem refl (joined : Bool) (mode : Mode) (text : Text) : Swapped New joined mode text text := by
  induction text generalizing joined mode with
  | nil => exact .nil
  | cons c rest ih => exact .same (ih _ _)

theorem mono (h : Swapped New joined mode text text') (weaker : ∀ text, New text → New' text) :
    Swapped New' joined mode text text' := by
  induction h with
  | nil => exact .nil
  | same _ ih => exact .same ih
  | operand settled old new _ ih => exact .operand settled old (weaker _ new) ih

theorem operands (h : Swapped Bracketed joined mode text text') : Swapped Operand joined mode text text' :=
  h.mono fun _ => Bracketed.operand

theorem symm (h : Swapped Operand joined mode text text') : Swapped Operand joined mode text' text := by
  induction h with
  | nil => exact .nil
  | same _ ih => exact .same ih
  | operand settled old new _ ih => exact .operand settled new old ih

theorem not_mem (h : Swapped New joined mode text text') (new : ∀ text, New text → c ∉ text) (old : c ∉ text) :
    c ∉ text' := by
  induction h with
  | nil => exact old
  | same _ ih =>
    rw [List.mem_cons, not_or] at old ⊢
    exact ⟨old.1, ih old.2⟩
  | operand _ _ value _ ih =>
    rw [List.mem_append, not_or] at old ⊢
    exact ⟨new _ value, ih old.2⟩

/-! ### Reading -/

theorem run_passed (h : Swapped New joined mode text text') (passed : ∀ text, New text → Passed text)
    (at_ : reader.mode = mode) : reader.run text = reader.run text' := by
  induction h generalizing reader with
  | nil => rfl
  | @same _ _ c _ _ _ ih =>
    subst at_
    exact @ih (reader.next c) rfl
  | operand settled old new _ ih =>
    subst at_
    rw [Reader.run_append, Reader.run_append, old.run settled, passed _ new reader settled]
    exact ih rfl

theorem run (h : Swapped Operand joined mode text text') (at_ : reader.mode = mode) :
    reader.run text = reader.run text' :=
  h.run_passed (fun _ new _ => new.run) at_

theorem mode_run (h : Swapped Operand joined mode text text') : mode.run text = mode.run text' := by
  have same := congrArg Reader.mode (h.run (show (⟨mode, 0, false⟩ : Reader).mode = mode from rfl))
  rwa [Reader.mode_run, Reader.mode_run] at same

theorem takes (h : Swapped Bracketed joined mode text text') (at_ : reader.mode = mode) (ground : 0 ≤ reader.depth)
    (taken : reader.Takes text target) : reader.Takes text' target := by
  induction h generalizing reader with
  | nil => exact taken
  | same _ ih =>
    subst at_
    have later := ih rfl taken.above.1 ⟨taken.run, taken.above.2, taken.held.2⟩
    exact ⟨later.run, ⟨taken.above.1, later.above⟩, ⟨taken.held.1, later.held⟩⟩
  | operand settled old new _ ih =>
    subst at_
    have behind := taken.right (old.run settled)
    cases new with
    | intro closed => exact (Reader.takes_brackets settled ground rfl rfl closed).append (ih rfl ground behind)

/-! ### The ends of the codes -/

theorem eq_nil (h : Swapped New joined mode [] text') : text' = [] := by
  generalize whole : [] = both at h
  cases h with
  | nil => rfl
  | same => cases whole
  | operand _ old _ _ => exact absurd (List.append_eq_nil_iff.1 whole.symm).1 old.ne_nil

theorem getLast? (h : Swapped New joined mode text text')
    (closing : ∀ text, New text → ∃ c, text.getLast? = some c ∧ isCloser c) :
    text.getLast? = text'.getLast? ∨
      ∃ c c', text.getLast? = some c ∧ text'.getLast? = some c' ∧ isCloser c ∧ isCloser c' := by
  induction h with
  | nil => exact .inl rfl
  | same _ ih =>
    rw [List.getLast?_cons, List.getLast?_cons]
    rcases ih with equal | ⟨c, c', last, last', closes, closes'⟩
    · exact .inl (by rw [equal])
    · exact .inr ⟨c, c', by rw [last]; rfl, by rw [last']; rfl, closes, closes'⟩
  | @operand _ _ _ rest rest' _ old new _ ih =>
    obtain ⟨d, last, closes⟩ := old.getLast?
    obtain ⟨d', last', closes'⟩ := closing _ new
    rw [List.getLast?_append, List.getLast?_append, last, last']
    rcases ih with equal | ⟨c, c', found, found', closer, closer'⟩
    · rw [equal]
      cases rest'.getLast? with
      | none => exact .inr ⟨d, d', rfl, rfl, closes, closes'⟩
      | some c => exact .inl rfl
    · exact .inr ⟨c, c', by rw [found]; rfl, by rw [found']; rfl, closer, closer'⟩

theorem endsWithChar (h : Swapped New joined mode text text')
    (closing : ∀ text, New text → ∃ c, text.getLast? = some c ∧ isCloser c) (other : isCloser c = false) :
    Text.endsWithChar text c = Text.endsWithChar text' c := by
  rcases h.getLast? closing with equal | ⟨d, d', last, last', closes, closes'⟩
  · rw [Text.endsWithChar, equal]
    rfl
  · have ne {e : Char} (h : isCloser e) : e ≠ c := by
      rintro rfl
      rw [other] at h
      cases h
    simp [Text.endsWithChar, last, last', ne closes, ne closes']

theorem starts (h : Swapped New joined mode text text') (opening : ∀ text, New text → Starts text) (first : Starts text) :
    Starts text' := by
  obtain ⟨c, rest, rfl, notBlank⟩ := first
  generalize whole : c :: rest = both at h
  cases h with
  | nil => cases whole
  | same later =>
    cases whole
    exact ⟨c, _, rfl, notBlank⟩
  | operand _ _ new _ => exact (opening _ new).append _

theorem concat (h : Swapped Operand joined mode (text ++ [last]) text') (other : isCloser last = false) :
    ∃ before, text' = before ++ [last] ∧ Swapped Operand joined mode text before := by
  generalize whole : text ++ [last] = both at h
  induction h generalizing text with
  | nil => simp at whole
  | @same _ _ c _ rest' later ih =>
    cases text with
    | nil =>
      rw [List.nil_append, List.cons.injEq] at whole
      obtain ⟨rfl, rfl⟩ := whole
      exact ⟨[], by rw [later.eq_nil]; rfl, .nil⟩
    | cons d text =>
      rw [List.cons_append, List.cons.injEq] at whole
      obtain ⟨rfl, rest⟩ := whole
      obtain ⟨before, rfl, found⟩ := ih rest
      exact ⟨d :: before, rfl, .same found⟩
  | @operand _ first first' rest rest' settled old new later ih =>
    rcases List.eq_nil_or_concat rest with rfl | ⟨start, d, rfl⟩
    · obtain ⟨c, found, closes⟩ := old.getLast?
      have same := congrArg List.getLast? whole
      rw [List.append_nil, found, List.getLast?_concat, Option.some.injEq] at same
      rw [same, closes] at other
      cases other
    · rw [List.concat_eq_append, ← List.append_assoc] at whole
      obtain ⟨rfl, same⟩ := List.append_inj' whole rfl
      cases same
      obtain ⟨before, rfl, found⟩ := ih List.concat_eq_append.symm
      exact ⟨first' ++ before, by rw [List.append_assoc], .operand settled old new found⟩

theorem append_right (h : Swapped Operand joined mode (text ++ tail) text') (other : ∀ c ∈ tail, isCloser c = false) :
    ∃ before, text' = before ++ tail ∧ Swapped Operand joined mode text before := by
  induction tail using List.reverseRecOn generalizing text' with
  | nil =>
    rw [List.append_nil] at h
    exact ⟨text', (List.append_nil _).symm, h⟩
  | append_singleton tail c ih =>
    rw [← List.append_assoc] at h
    obtain ⟨between, rfl, shorter⟩ := h.concat (other c (by simp))
    obtain ⟨before, rfl, found⟩ := ih shorter fun d mem => other d (by simp [mem])
    exact ⟨before, by rw [List.append_assoc], found⟩

theorem blank (h : Swapped Operand joined mode text text') (blank : ∀ c ∈ text, isBlankChar c) : text' = text := by
  induction h with
  | nil => rfl
  | same _ ih => rw [ih fun c mem => blank c (List.mem_cons_of_mem _ mem)]
  | operand _ old _ _ _ =>
    cases old with
    | intro =>
      exact absurd (blank '(' (by simp)) (by decide)

/-! ### The front of the codes -/

theorem front {New : Text → Prop} {front behind : Text} {mark : Char}
    (h : Swapped New joined mode (front ++ mark :: behind) text') (plain : '(' ∉ front)
    (other : Construct.isTargetChar mark = false) (notParen : mark ≠ '(') :
    ∃ behind', text' = front ++ mark :: behind' ∧
      Swapped New (joins mark) ((mode.run front).next mark) behind behind' := by
  generalize whole : front ++ mark :: behind = both at h
  induction h generalizing front with
  | nil => simp at whole
  | @same _ _ c _ rest' later ih =>
    cases front with
    | nil =>
      rw [List.nil_append, List.cons.injEq] at whole
      obtain ⟨rfl, rfl⟩ := whole
      exact ⟨rest', rfl, later⟩
    | cons d front =>
      rw [List.cons_append, List.cons.injEq] at whole
      obtain ⟨rfl, rest⟩ := whole
      obtain ⟨behind', rfl, found⟩ := ih (fun mem => plain (List.mem_cons_of_mem _ mem)) rest
      exact ⟨behind', rfl, found⟩
  | operand _ old _ _ _ => exact (old.not_front whole.symm plain other notParen).elim

theorem takeWhile_isWordChar (h : Swapped New true mode text text') :
    text.takeWhile isWordChar = text'.takeWhile isWordChar := by
  generalize joined_ : true = joined at h
  induction h with
  | nil => rfl
  | @same _ _ c rest rest' later ih =>
    rw [List.takeWhile_cons, List.takeWhile_cons]
    split
    · next word => rw [ih (by simp [joins, word])]
    · rfl
  | operand => cases joined_

theorem cons_of_joined (h : Swapped Operand true mode (c :: rest) text') :
    ∃ rest', text' = c :: rest' ∧ Swapped Operand (joins c) (mode.next c) rest rest' := by
  generalize joined_ : true = joined at h
  generalize whole : c :: rest = both at h
  cases h with
  | nil => cases whole
  | same later =>
    obtain ⟨rfl, rfl⟩ := List.cons.inj whole
    exact ⟨_, rfl, later⟩
  | operand => cases joined_

theorem firstWord_cons (h : Swapped New (joins c) mode text text') :
    Construct.firstWord (c :: text') = Construct.firstWord (c :: text) := by
  rw [Construct.firstWord, Construct.firstWord, nameAtStart, nameAtStart]
  split
  · next start =>
    have joined : joins c := by simp [joins, isWordChar_of_isNameStart start]
    rw [joined] at h
    rw [h.takeWhile_isWordChar]
  · rfl

theorem firstWord_eq (h : Swapped New joined mode text text') (same : Construct.firstWord text = word)
    (other : word ∉ operandWords) : Construct.firstWord text' = word := by
  cases h with
  | nil => exact same
  | same later => rw [← same, later.firstWord_cons]
  | operand _ old _ _ =>
    rw [← same] at other
    exact absurd (old.firstWord _) other

theorem joined_append (h : Swapped Operand true mode (word ++ rest) text') (whole : ∀ c ∈ word, joins c) :
    ∃ rest', text' = word ++ rest' ∧ Swapped Operand true (mode.run word) rest rest' := by
  induction word generalizing mode text' with
  | nil => exact ⟨text', rfl, h⟩
  | cons c word ih =>
    rw [List.forall_mem_cons] at whole
    obtain ⟨between, rfl, later⟩ := h.cons_of_joined
    rw [whole.1] at later
    obtain ⟨rest', rfl, found⟩ := ih later whole.2
    exact ⟨rest', rfl, found⟩

theorem word_append (h : Swapped Operand joined mode (word ++ rest) text') (nonempty : word ≠ [])
    (whole : ∀ c ∈ word, joins c) (other : Construct.firstWord (word ++ rest) ∉ operandWords) :
    ∃ rest', text' = word ++ rest' ∧ Swapped Operand true (mode.run word) rest rest' := by
  obtain ⟨c, word, rfl⟩ := List.exists_cons_of_ne_nil nonempty
  rw [List.forall_mem_cons] at whole
  generalize both : c :: word ++ rest = code at h
  cases h with
  | nil => cases both
  | same later =>
    obtain ⟨rfl, rfl⟩ := List.cons.inj both
    rw [whole.1] at later
    obtain ⟨rest', rfl, found⟩ := later.joined_append whole.2
    exact ⟨rest', rfl, found⟩
  | operand _ old _ _ =>
    rw [both] at other
    exact absurd (old.firstWord _) other

theorem head?_eq_some_iff (h : Swapped Operand joined mode text text') (other : Construct.isTargetChar c = false)
    (notParen : c ≠ '(') : text.head? = some c ↔ text'.head? = some c := by
  cases h with
  | nil | same => rfl
  | @operand _ first first' rest rest' _ old new _ =>
    have ne {part behind : Text} (operand : Operand part) : (part ++ behind).head? ≠ some c := by
      obtain ⟨d, first, kind⟩ := operand.head?
      rw [List.head?_append, first]
      intro same
      cases same
      rcases kind with target | paren
      · rw [target] at other
        cases other
      · exact notParen paren
    exact ⟨fun h => (ne old h).elim, fun h => (ne new h).elim⟩

end Swapped

/-! ## Searching at the top level -/

structure Blind (test : Option Char → Text → Bool) : Prop where
  agrees {previous previous' : Option Char} {mode : Mode} {c : Char} {rest rest' : Text}
    (before : previous.any isWordChar = previous'.any isWordChar)
    (behind : Swapped Operand (joins c) (mode.next c) rest rest') :
    test previous (c :: rest) = test previous' (c :: rest')
  ignores {previous : Option Char} {c : Char} {rest : Text}
    (h : isBlankChar c = true ∨ c = '(' ∨ isCloser c = true) : test previous (c :: rest) = false
  passes {previous : Option Char} {name part rest behind : Text} {c : Char} (h : name ∈ blockingNames)
    (whole : name = part ++ c :: rest) (alone : previous.any isWordChar = false) :
    test (part.getLast?.or previous) (c :: (rest ++ behind)) = false

namespace Blind

variable (blind : Blind test)
include blind

theorem free (depth : Nat) (h : ∀ c ∈ text, isBlankChar c ∨ c = '(' ∨ isCloser c) :
    Free test previous mode depth text := by
  intro part c rest behind whole _ _
  exact blind.ignores (h c (by simp [whole]))

theorem free_operand (h : Operand text) (settled : mode.isSettled) (alone : previous.any isWordChar = false)
    (depth : Nat) : Free test previous mode depth text := by
  cases h with
  | @intro name blanks inner close named blank closed closes =>
    have quiet (c : Char) (mem : c ∈ name ++ blanks) := Construct.isQuiet_of_isTargetChar (Operand.before named blank mem)
    have settled' := (Mode.depthRun_quiet settled quiet depth).1
    have inName : Free test previous mode depth name := by
      rcases named with rfl | named
      · intro part c rest behind whole
        simp at whole
      · intro part c rest behind whole _ _
        exact blind.passes named whole alone
    have before : Free test previous mode depth (name ++ blanks) :=
      inName.append (blind.free _ fun c mem => .inl (blank c mem))
    rw [← List.append_assoc]
    exact before.append (closed.free_brackets settled' (fun _ _ => blind.ignores (.inr (.inl rfl)))
      (fun _ _ => blind.ignores (.inr (.inr closes))) _ _)

theorem firstTop_operand (h : Operand text) (settled : mode.isSettled) (alone : previous.any isWordChar = false)
    (depth : Nat) (rest : Text) :
    firstTop test previous mode depth (text ++ rest) =
      (firstTop test text.getLast? .code depth rest).map (· + text.length) := by
  have last : text.getLast?.or previous = text.getLast? := by
    obtain ⟨c, found, -⟩ := h.getLast?
    rw [found]
    rfl
  rw [(blind.free_operand h settled alone depth).firstTop, h.mode_run settled, h.depthRun settled, last]

end Blind

theorem Swapped.firstTop (blind : Blind test) (h : Swapped Operand joined mode text text')
    (previous previous' : Option Char) (depth : Nat) (before : previous.any isWordChar = previous'.any isWordChar)
    (alone : joined = false → previous.any isWordChar = false) :
    LineProbe.firstTop test previous mode depth text = none ∧
        LineProbe.firstTop test previous' mode depth text' = none ∨
      ∃ part part' c rest rest', text = part ++ c :: rest ∧ text' = part' ++ c :: rest' ∧
        LineProbe.firstTop test previous mode depth text = some part.length ∧
        LineProbe.firstTop test previous' mode depth text' = some part'.length ∧
        test (part.getLast?.or previous) (c :: rest) ∧ (mode.run part).readsCode c ∧
        Swapped Operand joined mode part part' ∧ Swapped Operand (joins c) .code rest rest' := by
  induction h generalizing previous previous' depth with
  | nil => exact .inl ⟨rfl, rfl⟩
  | @same joined mode c rest rest' later ih =>
    have agrees := blind.agrees before later
    rw [LineProbe.firstTop, LineProbe.firstTop, ← agrees]
    split
    · next hit =>
      simp only [Bool.and_eq_true, beq_iff_eq] at hit
      rw [Mode.next_of_readsCode hit.1.1] at later
      exact .inr ⟨[], [], c, rest, rest', rfl, rfl, rfl, rfl, hit.2, hit.1.1, .nil, later⟩
    · have alone' : joins c = false → (some c).any isWordChar = false := by
        intro apart
        simp_all [joins]
      rcases ih (some c) (some c) (mode.depthNext depth c) rfl alone' with
        ⟨none_, none_'⟩ | ⟨part, part', d, behind, behind', rfl, rfl, found, found', passes, reads, swapped, swapped'⟩
      · exact .inl ⟨by rw [none_]; rfl, by rw [none_']; rfl⟩
      · exact .inr ⟨c :: part, c :: part', d, behind, behind', rfl, rfl, by rw [found]; rfl, by rw [found']; rfl,
          by rwa [getLast?_cons_or], reads, .same swapped, swapped'⟩
  | @operand mode first first' rest rest' settled old new later ih =>
    have closer {operand : Text} (h : Operand operand) : operand.getLast?.any isWordChar = false := by
      obtain ⟨c, found, closes⟩ := h.getLast?
      rw [found]
      simp only [isCloser, Bool.or_eq_true, beq_iff_eq] at closes
      rcases closes with (rfl | rfl) | rfl <;> decide
    have alone_ := alone rfl
    rw [blind.firstTop_operand old settled alone_, blind.firstTop_operand new settled (before ▸ alone_)]
    rcases ih first.getLast? first'.getLast? depth (by rw [closer old, closer new]) (fun _ => closer old) with
      ⟨none_, none_'⟩ | ⟨part, part', d, behind, behind', rfl, rfl, found, found', passes, reads, swapped, swapped'⟩
    · exact .inl ⟨by rw [none_]; rfl, by rw [none_']; rfl⟩
    · obtain ⟨e, last, -⟩ := old.getLast?
      refine .inr ⟨first ++ part, first' ++ part', d, behind, behind', by rw [List.append_assoc],
        by rw [List.append_assoc], ?_, ?_, ?_, ?_, .operand settled old new swapped, swapped'⟩
      · rw [found, List.length_append, Option.map_some, Nat.add_comm]
      · rw [found', List.length_append, Option.map_some, Nat.add_comm]
      · rw [getLast?_append_or, last]
        rwa [last] at passes
      · rwa [Mode.run_append, old.mode_run settled]

theorem Swapped.firstTop_code (blind : Blind test) (h : Swapped Operand false .code code code') :
    LineProbe.firstTop test none .code 0 code = none ∧ LineProbe.firstTop test none .code 0 code' = none ∨
      ∃ part part' c rest rest', code = part ++ c :: rest ∧ code' = part' ++ c :: rest' ∧
        LineProbe.firstTop test none .code 0 code = some part.length ∧
        LineProbe.firstTop test none .code 0 code' = some part'.length ∧ test part.getLast? (c :: rest) ∧
        (Mode.code.run part).readsCode c ∧ Swapped Operand false .code part part' ∧
        Swapped Operand (joins c) .code rest rest' := by
  have found := h.firstTop blind none none 0 rfl (fun _ => rfl)
  simpa only [Option.or_none] using found

/-! ## Blind tests -/

theorem blind_charTest {mark : Char} (other : Construct.isTargetChar mark = false) (notParen : mark ≠ '(')
    (notCloser : isCloser mark = false) : Blind (charTest mark) where
  agrees _ _ := rfl
  ignores {previous c rest} h := by
    have ne : c ≠ mark := by
      rintro rfl
      rcases h with blank | paren | closes
      · rw [Construct.isTargetChar_of_isBlankChar blank] at other
        cases other
      · exact notParen paren
      · rw [closes] at notCloser
        cases notCloser
    simp [charTest, ne]
  passes {previous name part rest behind c} named whole _ := by
    have ne : c ≠ mark := by
      rintro rfl
      have := joins_of_mem_blockingNames (c := c) named (by simp [whole])
      simp_all [Construct.isTargetChar, joins]
    simp [charTest, ne]

theorem colonTest_eq (previous : Option Char) (c : Char) (rest : Text) :
    colonTest previous (c :: rest) = (charTest ':' previous (c :: rest) && rest.head? != some '=') := by
  simp [colonTest, charTest, List.head?_eq_getElem?]

theorem blind_colonTest : Blind colonTest := by
  have colon : Blind (charTest ':') := blind_charTest (by decide) (by decide) (by decide)
  refine ⟨?_, ?_, ?_⟩
  · intro previous previous' mode c rest rest' before behind
    have same : (rest.head? != some '=') = (rest'.head? != some '=') := by
      have := behind.head?_eq_some_iff (show Construct.isTargetChar '=' = false by decide) (by decide)
      rw [Bool.eq_iff_iff]
      simp [this]
    rw [colonTest_eq, colonTest_eq, same, colon.agrees before behind]
  · intro previous c rest h
    rw [colonTest_eq, colon.ignores h]
    rfl
  · intro previous name part rest behind c named whole alone
    rw [colonTest_eq, colon.passes named whole alone]
    rfl

theorem in_of_blockingNames : ∀ name ∈ blockingNames, ∀ index < name.length, name[index]? = some 'i' →
    (name.take index).getLast?.any isWordChar ∨
      ((name.drop (index + 1)).take 2).length = 2 ∧ ((name.drop (index + 1)).take 2).all isWordChar := by
  decide +kernel

theorem blind_wordTest_in : Blind (wordTest "in") := by
  refine ⟨?_, ?_, ?_⟩
  · intro previous previous' mode c rest rest' before behind
    rw [Bool.eq_iff_iff, Construct.wordTest_in_iff, Construct.wordTest_in_iff, before]
    by_cases h : c = 'i'
    · subst h
      rw [show joins 'i' by decide] at behind
      rw [behind.takeWhile_isWordChar]
    · simp [h]
  · intro previous c rest h
    rw [Bool.eq_false_iff, ne_eq, Construct.wordTest_in_iff]
    rintro ⟨rfl, -, -⟩
    rcases h with h | h | h <;> exact absurd h (by decide)
  · intro previous name part rest behind c named whole alone
    rw [Bool.eq_false_iff, ne_eq, Construct.wordTest_in_iff]
    rintro ⟨rfl, word, before⟩
    have here := in_of_blockingNames name named part.length (by simp [whole]) (by simp [whole])
    rw [whole, List.take_left, show part ++ 'i' :: rest = (part ++ ['i']) ++ rest by simp,
      show part.length + 1 = (part ++ ['i']).length by simp, List.drop_left] at here
    rcases here with joined | ⟨long, words⟩
    · cases last : part.getLast? <;> simp_all
    · rcases rest with - | ⟨d, - | ⟨e, rest⟩⟩ <;> simp_all

/-! ## Matching brackets -/

theorem Operand.closingPlace? (h : Operand first) {mode : Mode} (settled : mode.isSettled) (inside : 0 < count)
    (depth index : Nat) (rest : Text) :
    LineProbe.closingPlace? count (mode.places depth index (first ++ rest)) =
      LineProbe.closingPlace? count (Mode.code.places depth (index + first.length) rest) := by
  have above : (⟨mode, count - 1, false⟩ : Reader).Above first := h.above settled (show 0 ≤ count - 1 by omega)
  have level : 0 = 0 + mode.bracketDelta first := by
    have := Reader.depth_run ⟨mode, 0, false⟩ first
    rwa [h.run settled] at this
  rw [Mode.places_append, closingPlace?_above above, h.mode_run settled, h.depthRun settled, ← level.trans (Int.zero_add _),
    Int.add_zero]

theorem Swapped.closingPlace? (h : Swapped Operand joined mode text text') (inside : 0 < count)
    (found : LineProbe.closingPlace? count (mode.places depth index text) = some close) (index' : Nat) :
    ∃ inner inner' c rest rest', text = inner ++ c :: rest ∧ text' = inner' ++ c :: rest' ∧
      close = index + inner.length ∧
      LineProbe.closingPlace? count (mode.places depth index' text') = some (index' + inner'.length) ∧
      Swapped Operand (joins c) .code rest rest' := by
  induction h generalizing count depth index index' with
  | nil => cases found
  | @same _ mode c rest rest' later ih =>
    have extend {level : Int} (deeper : 0 < level) (found : LineProbe.closingPlace? level
        ((mode.next c).places (mode.depthNext depth c) (index + 1) rest) = some close) :
        ∃ inner inner' d behind behind', c :: rest = inner ++ d :: behind ∧ c :: rest' = inner' ++ d :: behind' ∧
          close = index + inner.length ∧ LineProbe.closingPlace? level
            ((mode.next c).places (mode.depthNext depth c) (index' + 1) rest') = some (index' + inner'.length) ∧
          Swapped Operand (joins d) .code behind behind' := by
      obtain ⟨inner, inner', d, behind, behind', rfl, rfl, rfl, found', agree⟩ := ih deeper found (index' + 1)
      refine ⟨c :: inner, c :: inner', d, behind, behind', rfl, rfl, ?_, ?_, agree⟩
      · rw [List.length_cons]
        omega
      · rw [found', List.length_cons, Nat.add_assoc, Nat.add_comm 1]
    rw [Mode.places_cons] at found ⊢
    by_cases reads : mode.readsCode c
    · simp only [reads, if_true, List.singleton_append, LineProbe.closingPlace?] at found ⊢
      by_cases opens : isOpener c
      · simp only [opens, if_true] at found ⊢
        exact extend (by omega) found
      by_cases closes : isCloser c
      · by_cases last : count = 1
        · simp only [opens, closes, last, if_true] at found ⊢
          cases found
          rw [Mode.next_of_readsCode reads] at later
          exact ⟨[], [], c, rest, rest', rfl, rfl, rfl, rfl, later⟩
        · simp only [opens, closes, last, if_true, if_false] at found ⊢
          exact extend (by omega) found
      · simp only [opens, closes] at found ⊢
        exact extend inside found
    · simp only [reads, Bool.false_eq_true, if_false, List.nil_append] at found ⊢
      exact extend inside found
  | @operand _ first first' rest rest' settled old new _ ih =>
    rw [old.closingPlace? settled inside] at found
    obtain ⟨inner, inner', c, behind, behind', rfl, rfl, rfl, found', agree⟩ := ih inside found (index' + first'.length)
    refine ⟨first ++ inner, first' ++ inner', c, behind, behind', by rw [List.append_assoc], by rw [List.append_assoc],
      by rw [List.length_append, Nat.add_assoc], ?_, agree⟩
    rw [new.closingPlace? settled inside, found', List.length_append, Nat.add_assoc]

theorem Swapped.bracket {inner : Text} (h : Swapped Operand false .code (inner ++ close :: behind) text')
    (closed : Closed inner)
    (closes : isCloser close) :
    ∃ inner' behind', text' = inner' ++ close :: behind' ∧ Closed inner' ∧
      Swapped Operand (joins close) .code behind behind' := by
  have settled : (Mode.code.run []).isSettled := rfl
  have found := closed.matchingBracket? settled (show isOpener '(' from rfl) closes behind
  rw [matchingBracket?_eq settled rfl] at found
  obtain ⟨part, part', c, rest, rest', whole, rfl, place, found', agree⟩ := h.closingPlace? Int.one_pos found 1
  obtain ⟨rfl, same⟩ := List.append_inj whole (by rw [List.length_nil] at place; omega)
  obtain ⟨rfl, rfl⟩ := List.cons.inj same
  have matched : matchingBracket? ([] ++ '(' :: (part' ++ close :: rest')) ([] : Text).length = some (1 + part'.length) := by
    rw [matchingBracket?_eq settled rfl]
    exact found'
  obtain ⟨-, inner', d, behind', cut, length, -, closed'⟩ := matchingBracket?_spec matched settled
  obtain ⟨rfl, -⟩ := List.append_inj cut (by rw [List.length_nil] at length; omega)
  exact ⟨part', rest', rfl, closed', agree⟩

end LineProbe
