import LineProbe.Proofs.Swapped

/-!
# Spans of blocking calls

A blocking call begins where a code character is the first one of its name, and its span ends with the bracket that
closes it.
-/

namespace LineProbe

open Text

/-! ## Where calls begin -/

def Opens (text : Text) : Prop :=
  ∃ name ∈ blockingNames, ∃ blanks rest, text = name ++ (blanks ++ '(' :: rest) ∧ ∀ c ∈ blanks, isBlankChar c = true

variable {names : List Text}

theorem callAtStart?_spec (h : callAtStart? names text = some (name, offset)) :
    name ∈ names ∧ ∃ blanks rest, text = name ++ (blanks ++ '(' :: rest) ∧ (∀ c ∈ blanks, isBlankChar c) ∧
      offset = (name ++ blanks).length := by
  obtain ⟨found, mem, h⟩ := List.exists_of_findSome?_eq_some h
  dsimp only at h
  split at h
  · next starts =>
    cases h
    simp only [Bool.and_eq_true, beq_iff_eq, startsWith, List.isPrefixOf_iff_prefix] at starts
    obtain ⟨⟨tail, rfl⟩, paren⟩ := starts
    rw [List.drop_left] at paren ⊢
    obtain ⟨rest, trimmed⟩ : ∃ rest, trimLeft tail = '(' :: rest := by
      cases trimmed : trimLeft tail with
      | nil => simp [trimmed] at paren
      | cons c rest =>
        rw [trimmed] at paren
        exact ⟨rest, by rw [Option.some.inj paren]⟩
    have whole := leadingBlanks_append_trimLeft tail
    refine ⟨mem, leadingBlanks tail, rest, by rw [← trimmed, whole], fun c => isBlankChar_of_mem_leadingBlanks, ?_⟩
    have length := congrArg List.length whole
    rw [List.length_append] at length ⊢
    rw [List.length_append]
    omega
  · cases h

theorem callAtStart?_isSome_iff : (callAtStart? blockingNames text).isSome ↔ Opens text := by
  constructor
  · intro some_
    obtain ⟨⟨name, offset⟩, found⟩ := Option.isSome_iff_exists.1 some_
    obtain ⟨named, blanks, rest, whole, blank, -⟩ := callAtStart?_spec found
    exact ⟨name, named, blanks, rest, whole, blank⟩
  · rintro ⟨name, named, blanks, rest, rfl, blank⟩
    rw [callAtStart?, List.findSome?_isSome_iff]
    refine ⟨name, named, ?_⟩
    have paren : trimLeft (blanks ++ '(' :: rest) = '(' :: rest := by
      rw [trimLeft_append_of_blank blank]
      exact trimLeft_of_head (by simp; decide)
    simp [startsWith, paren]

theorem Opens.paren_mem (h : Opens text) : '(' ∈ text := by
  obtain ⟨name, named, blanks, behind, rfl, blank⟩ := h
  simp

theorem Opens.word_head (h : Opens (c :: rest)) : isWordChar c := by
  obtain ⟨name, named, blanks, behind, whole, -⟩ := h
  have all : ∀ name ∈ blockingNames, name.head?.any isWordChar := by decide +kernel
  have first := all name named
  cases name with
  | nil => cases first
  | cons d name =>
    obtain ⟨rfl, -⟩ := List.cons.inj whole
    exact first

theorem Opens.joins_head (h : Opens (c :: rest)) : joins c := by
  rw [joins, h.word_head, Bool.true_or]

theorem Mode.readsCode_of_joins (joined : joins c) (mode : Mode) : mode.readsCode c = mode.isSettled := by
  have other {mark : Char} (apart : joins mark = false) : c ≠ mark := by
    rintro rfl
    rw [joined] at apart
    cases apart
  rw [Bool.eq_iff_iff]
  refine ⟨fun reads => settled_of_readsCode reads (other (by decide)), fun settled => ?_⟩
  exact readsCode_of_settled settled ⟨other (by decide), other (by decide), other (by decide)⟩

/-! ## The search for spans -/

theorem start_mem_callsFrom (h : call ∈ callsFrom names stops previous index text) : index ≤ call.start := by
  induction text generalizing previous index with
  | nil => cases h
  | cons c rest ih =>
    rw [callsFrom] at h
    split at h
    · exact Nat.le_of_succ_le (ih h)
    · split at h
      · rcases List.mem_cons.1 h with rfl | later
        · exact Nat.le_refl _
        · exact Nat.le_of_succ_le (ih later)
      · exact Nat.le_of_succ_le (ih h)

theorem collectSpans_eq (le : position ≤ further) (h : ∀ call ∈ calls, further ≤ call.start) :
    collectSpans code isCode position calls = collectSpans code isCode further calls := by
  induction calls with
  | nil => rfl
  | cons call calls ih =>
    rw [List.forall_mem_cons] at h
    rw [collectSpans, collectSpans, decide_eq_false (by omega : ¬ call.start < position),
      decide_eq_false (by omega : ¬ call.start < further), ih h.2]

theorem callsFrom_append_of_skips {β : Type} {read : List NamedCall → β} (part rest : Text)
    (skips : ∀ call calls, call.start < index + part.length → read (call :: calls) = read calls) :
    read (callsFrom names stops previous index (part ++ rest)) =
      read (callsFrom names stops (part.getLast?.or previous) (index + part.length) rest) := by
  induction part generalizing previous index with
  | nil => rfl
  | cons c part ih =>
    rw [List.length_cons, show index + (part.length + 1) = index + 1 + part.length by omega] at skips ⊢
    rw [getLast?_cons_or, ← ih skips, List.cons_append, callsFrom]
    split
    · rfl
    · split
      · exact skips _ _ (by dsimp only; omega)
      · rfl

theorem collectSpans_callsFrom {stops : Char → Bool} {previous : Option Char} {index : Nat} (part rest : Text) :
    collectSpans code isCode (index + part.length) (callsFrom names stops previous index (part ++ rest)) =
      collectSpans code isCode (index + part.length)
        (callsFrom names stops (part.getLast?.or previous) (index + part.length) rest) :=
  callsFrom_append_of_skips part rest fun call calls early => by
    rw [collectSpans, decide_eq_true early, Bool.true_or, if_pos rfl]

theorem start_mem_collectSpans (h : ∀ call ∈ calls, least ≤ call.start)
    (mem : span ∈ collectSpans code isCode position calls) : least ≤ span.start := by
  induction calls generalizing position with
  | nil => cases mem
  | cons call calls ih =>
    rw [List.forall_mem_cons] at h
    rw [collectSpans] at mem
    split at mem
    · exact ih h.2 mem
    · split at mem
      · cases mem
      · rcases List.mem_cons.1 mem with rfl | later
        · exact h.1
        · exact ih h.2 later

theorem replaceSpans_cons (h : ∀ span ∈ spans, before.length + 1 ≤ span.start) :
    replaceSpans (before ++ c :: rest) value before.length site spans =
      c :: replaceSpans (before ++ c :: rest) value (before.length + 1) site spans := by
  have behind : (before ++ c :: rest).drop (before.length + 1) = rest := by
    rw [List.drop_append, List.drop_of_length_le (by omega)]
    simp
  cases spans with
  | nil => rw [replaceSpans, replaceSpans, List.drop_left, behind]
  | cons span spans =>
    obtain ⟨count, start⟩ := Nat.exists_eq_add_of_le (h span List.mem_cons_self)
    have cut : (before ++ c :: rest).take span.start = before ++ c :: rest.take count := by
      rw [start, List.take_append, List.take_of_length_le (by omega),
        show before.length + 1 + count - before.length = count + 1 by omega, List.take_succ_cons]
    rw [replaceSpans, replaceSpans, slice, slice, cut, List.drop_left, List.drop_append,
      List.drop_of_length_le (by omega)]
    simp

def spansBehind (before text : Text) : List Span :=
  collectSpans (before ++ text) (((places (before ++ text)).map Place.index).contains ·) before.length
    (callsFrom blockingNames joins before.getLast? before.length text)

/-! ## Calls -/

inductive BlockingCall : Text → Prop where
  | intro {name blanks inner : Text} {close : Char} (named : name ∈ blockingNames)
    (blank : ∀ c ∈ blanks, isBlankChar c = true) (closed : Closed inner) (closes : isCloser close = true) :
    BlockingCall (name ++ (blanks ++ '(' :: (inner ++ [close])))

namespace BlockingCall

theorem operand (h : BlockingCall first) : Operand first := by
  cases h with
  | intro named blank closed closes => exact .intro (.inr named) blank closed closes

theorem opens (h : BlockingCall first) (rest : Text) : Opens (first ++ rest) := by
  cases h with
  | @intro name blanks inner close named blank closed closes =>
    exact ⟨name, named, blanks, inner ++ close :: rest, by simp, blank⟩

end BlockingCall

theorem settled_name (named : name ∈ blockingNames) (blank : ∀ c ∈ blanks, isBlankChar c)
    (settled : (Mode.code.run before).isSettled) : (Mode.code.run (before ++ (name ++ blanks))).isSettled := by
  rw [Mode.run_append]
  exact (Mode.depthRun_quiet settled
    (fun c mem => Construct.isQuiet_of_isTargetChar (Operand.before (.inr named) blank mem)) 0).1

theorem exists_blockingCall (found : callAtStart? blockingNames text = some (name, offset))
    (settled : (Mode.code.run before).isSettled)
    (h : matchingBracket? (before ++ text) (before.length + offset) = some close) :
    ∃ first rest, text = first ++ rest ∧ BlockingCall first ∧ close + 1 = before.length + first.length := by
  obtain ⟨named, blanks, inside, rfl, blank, rfl⟩ := callAtStart?_spec found
  rw [← List.append_assoc name, ← List.append_assoc before, ← List.length_append] at h
  obtain ⟨-, inner, last, rest, rfl, rfl, closes, closed⟩ := matchingBracket?_spec h (settled_name named blank settled)
  refine ⟨name ++ (blanks ++ '(' :: (inner ++ [last])), rest, by simp, .intro named blank closed closes, ?_⟩
  simp only [List.length_append, List.length_cons, List.length_nil]
  omega

theorem BlockingCall.found {before first : Text} (h : BlockingCall first) (settled : (Mode.code.run before).isSettled)
    (rest : Text) : ∃ name offset, callAtStart? blockingNames (first ++ rest) = some (name, offset) ∧
      matchingBracket? (before ++ (first ++ rest)) (before.length + offset) = some (before.length + first.length - 1) := by
  obtain ⟨⟨name', offset⟩, found⟩ := Option.isSome_iff_exists.1 (callAtStart?_isSome_iff.2 (h.opens rest))
  refine ⟨name', offset, found, ?_⟩
  cases h with
  | @intro name blanks inner close named blank closed closes =>
    obtain ⟨named', blanks', inside, whole, blank', rfl⟩ := callAtStart?_spec found
    have split : (name ++ blanks) ++ '(' :: (inner ++ close :: rest) = (name' ++ blanks') ++ '(' :: inside := by
      simpa using whole
    obtain ⟨same, -⟩ := Construct.append_paren_inj (fun c => Operand.before (.inr named) blank)
      (fun c => Operand.before (.inr named') blank') split
    have closing := closed.matchingBracket? (settled_name named blank settled) (show isOpener '(' from rfl) closes rest
    rw [← same]
    simp only [List.append_assoc, List.length_append, List.cons_append, List.nil_append, List.length_cons,
      List.length_nil] at closing ⊢
    rw [closing]
    congr 1
    omega

theorem BlockingCall.unique (h : BlockingCall first) (h' : BlockingCall first') (same : first ++ rest = first' ++ rest') :
    first = first' ∧ rest = rest' := by
  cases h with
  | @intro name blanks inner close named blank closed closes =>
    cases h' with
    | @intro name' blanks' inner' close' named' blank' closed' closes' =>
      have split : (name ++ blanks) ++ '(' :: (inner ++ close :: rest) =
          (name' ++ blanks') ++ '(' :: (inner' ++ close' :: rest') := by
        simpa using same
      obtain ⟨front, behind⟩ := Construct.append_paren_inj (fun c => Operand.before (.inr named) blank)
        (fun c => Operand.before (.inr named') blank') split
      obtain ⟨rfl, rfl, rfl⟩ := closed.unique closed' closes closes' behind
      exact ⟨by rw [← List.append_assoc, front, List.append_assoc], rfl⟩

/-! ## Spans, from left to right -/

theorem spansBehind_cons
    (free : before.getLast?.any joins = false → (Mode.code.run before).isSettled → ¬ Opens (c :: rest)) :
    spansBehind before (c :: rest) = spansBehind (before ++ [c]) rest := by
  have later : collectSpans (before ++ c :: rest) (((places (before ++ c :: rest)).map Place.index).contains ·) before.length
      (callsFrom blockingNames joins (some c) (before.length + 1) rest) = spansBehind (before ++ [c]) rest := by
    rw [collectSpans_eq (Nat.le_succ _) fun call => start_mem_callsFrom, spansBehind]
    simp
  rw [spansBehind, callsFrom]
  split
  · exact later
  · next alone =>
    split
    · next name offset found =>
      have opens := callAtStart?_isSome_iff.1 (by rw [found]; rfl)
      have hidden : (Mode.code.run before).isSettled = false := by
        by_contra settled
        exact free (by simpa using alone) (by simpa using settled) opens
      rw [collectSpans]
      dsimp only
      rw [contains_index_places, Mode.readsCode_of_joins opens.joins_head, hidden, Bool.not_false, Bool.or_true, if_pos rfl]
      exact later
    · exact later

theorem spansBehind_found (alone : before.getLast?.any joins = false) (settled : (Mode.code.run before).isSettled)
    (found : callAtStart? blockingNames (c :: rest) = some (name, offset)) :
    spansBehind before (c :: rest) =
      match matchingBracket? (before ++ c :: rest) (before.length + offset) with
      | none => []
      | some close => ⟨before.length, close + 1⟩ :: collectSpans (before ++ c :: rest)
          (((places (before ++ c :: rest)).map Place.index).contains ·) (close + 1)
          (callsFrom blockingNames joins (some c) (before.length + 1) rest) := by
  have opens := callAtStart?_isSome_iff.1 (show (callAtStart? blockingNames (c :: rest)).isSome by rw [found]; rfl)
  rw [spansBehind, callsFrom, alone]
  simp only [Bool.false_eq_true, if_false, found]
  rw [collectSpans, decide_eq_false (by simp), Bool.false_or]
  dsimp only
  rw [contains_index_places, Mode.readsCode_of_joins opens.joins_head, settled]
  rfl

theorem spansBehind_call (alone : before.getLast?.any joins = false) (settled : (Mode.code.run before).isSettled)
    (call : BlockingCall first) (rest : Text) :
    spansBehind before (first ++ rest) =
      ⟨before.length, (before ++ first).length⟩ :: spansBehind (before ++ first) rest := by
  obtain ⟨name, offset, found, closing⟩ := call.found settled rest
  obtain ⟨c, first, rfl⟩ := List.exists_cons_of_ne_nil call.operand.ne_nil
  have inside := @collectSpans_callsFrom blockingNames (before ++ c :: (first ++ rest))
    (((places (before ++ c :: (first ++ rest))).map Place.index).contains ·) joins (some c) (before.length + 1) first rest
  have length : before.length + (c :: first).length - 1 + 1 = before.length + 1 + first.length := by
    rw [List.length_cons]
    omega
  have behind : (before ++ c :: first).getLast? = first.getLast?.or (some c) := by
    rw [List.getLast?_append, getLast?_cons_or]
  rw [List.cons_append] at found closing ⊢
  rw [spansBehind_found alone settled found, closing]
  dsimp only
  rw [length, inside, spansBehind, behind, List.append_assoc, List.cons_append, List.length_append, List.length_cons,
    show before.length + (first.length + 1) = before.length + 1 + first.length by omega]

theorem spansBehind_unclosed (alone : before.getLast?.any joins = false) (settled : (Mode.code.run before).isSettled)
    (opens : Opens text) (unclosed : ∀ first rest, text = first ++ rest → ¬ BlockingCall first) :
    spansBehind before text = [] := by
  obtain ⟨⟨name, offset⟩, found⟩ := Option.isSome_iff_exists.1 (callAtStart?_isSome_iff.2 opens)
  cases text with
  | nil => rfl
  | cons c rest =>
    rw [spansBehind_found alone settled found]
    cases closing : matchingBracket? (before ++ c :: rest) (before.length + offset) with
    | none => rfl
    | some close =>
      obtain ⟨first, behind, whole, call, -⟩ := exists_blockingCall found settled closing
      exact absurd call (unclosed first behind whole)

/-! ## Codes with their spans replaced -/

/-- Two codes, read from a mode on, of which the second one has a value in place of each blocking call of the first
one, up to a call that is not closed. The spans of the calls are counted from `index` on, the values from `site` on. -/
inductive Exchanged (value : Nat → Text) : (joined : Bool) → Mode → (index site : Nat) → List Span → Text → Text → Prop where
  | nil {joined : Bool} {mode : Mode} {index site : Nat} : Exchanged value joined mode index site [] [] []
  | kept {joined : Bool} {mode : Mode} {index site : Nat} {spans : List Span} {c : Char} {rest rest' : Text}
    (free : joined = false → mode.isSettled = true → ¬ Opens (c :: rest))
    (later : Exchanged value (joins c) (mode.next c) (index + 1) site spans rest rest') :
    Exchanged value joined mode index site spans (c :: rest) (c :: rest')
  | call {mode : Mode} {index site : Nat} {spans : List Span} {first rest rest' : Text} (settled : mode.isSettled = true)
    (call : BlockingCall first)
    (later : Exchanged value false .code (index + first.length) (site + 1) spans rest rest') :
    Exchanged value false mode index site (⟨index, index + first.length⟩ :: spans) (first ++ rest) (value site ++ rest')
  | unclosed {mode : Mode} {index site : Nat} {text : Text} (settled : mode.isSettled = true) (opens : Opens text)
    (unclosed : ∀ first rest, text = first ++ rest → ¬ BlockingCall first) :
    Exchanged value false mode index site [] text text

theorem Exchanged.swapped (h : Exchanged value joined mode index site spans text text')
    (values : ∀ site, New (value site)) : Swapped New joined mode text text' := by
  induction h with
  | nil => exact .nil
  | kept _ _ ih => exact .same ih
  | call settled call _ ih => exact .operand settled call.operand (values _) ih
  | unclosed => exact .refl ..

namespace Exchanged

theorem kept_of_free (h : Exchanged value joined mode index site spans (c :: rest) code')
    (free : joined = false → mode.isSettled → ¬ Opens (c :: rest)) :
    ∃ rest', code' = c :: rest' ∧ Exchanged value (joins c) (mode.next c) (index + 1) site spans rest rest' := by
  generalize whole : c :: rest = code at h
  cases h with
  | nil => cases whole
  | kept _ later =>
    cases whole
    exact ⟨_, rfl, later⟩
  | @call _ _ _ _ _ behind _ settled call _ =>
    have opens := call.opens behind
    rw [← whole] at opens
    exact absurd opens (free rfl settled)
  | unclosed settled opens _ =>
    rw [← whole] at opens
    exact absurd opens (free rfl settled)

theorem of_call (h : Exchanged value false mode index site spans (first ++ rest) code') (settled : mode.isSettled)
    (call : BlockingCall first) :
    ∃ rest' later, code' = value site ++ rest' ∧
      Exchanged value false .code (index + first.length) (site + 1) later rest rest' := by
  generalize whole : first ++ rest = code at h
  cases h with
  | nil => exact absurd (List.append_eq_nil_iff.1 whole).1 call.operand.ne_nil
  | kept free _ =>
    have opens := call.opens rest
    rw [whole] at opens
    exact absurd opens (free rfl settled)
  | call _ call' later =>
    obtain ⟨rfl, rfl⟩ := call.unique call' whole
    exact ⟨_, _, rfl, later⟩
  | unclosed _ _ unclosed => exact absurd call (unclosed first rest whole.symm)

end Exchanged

theorem joins_of_isCloser (h : isCloser c) : joins c = false := by
  simp only [isCloser, Bool.or_eq_true, beq_iff_eq] at h
  rcases h with (rfl | rfl) | rfl <;> decide

theorem Operand.joins_getLast? (h : Operand text) (front : Text) : (front ++ text).getLast?.any joins = false := by
  obtain ⟨c, last, closes⟩ := h.getLast?
  rw [List.getLast?_append, last]
  exact joins_of_isCloser closes

theorem replaceSpans_exchanged (value : Nat → Text) (before text : Text) (site : Nat) :
    Exchanged value (before.getLast?.any joins) (Mode.code.run before) before.length site (spansBehind before text) text
      (replaceSpans (before ++ text) value before.length site (spansBehind before text)) := by
  induction size : text.length using Nat.strongRecOn generalizing before text site with
  | ind size_ ih =>
    subst size
    cases text with
    | nil =>
      rw [spansBehind, callsFrom, collectSpans, replaceSpans, List.append_nil, List.drop_length]
      exact .nil
    | cons c rest =>
      by_cases hit : before.getLast?.any joins = false ∧ (Mode.code.run before).isSettled ∧ Opens (c :: rest)
      · obtain ⟨alone, settled, opens⟩ := hit
        rw [alone]
        by_cases closed : ∃ first behind, c :: rest = first ++ behind ∧ BlockingCall first
        · obtain ⟨first, behind, whole, call⟩ := closed
          have shorter : behind.length < (c :: rest).length := by
            have := List.length_pos_iff.2 call.operand.ne_nil
            rw [whole, List.length_append]
            omega
          have later := ih behind.length shorter (before ++ first) behind (site + 1) rfl
          rw [call.operand.joins_getLast?, Mode.run_append, call.operand.mode_run settled, List.append_assoc] at later
          have empty : slice (before ++ (first ++ behind)) before.length before.length = [] := by simp [slice]
          rw [whole, spansBehind_call alone settled call, replaceSpans, empty, List.nil_append]
          rw [List.length_append] at later ⊢
          exact .call settled call later
        · have unclosed (first behind : Text) (whole : c :: rest = first ++ behind) : ¬ BlockingCall first :=
            fun call => closed ⟨first, behind, whole, call⟩
          rw [spansBehind_unclosed alone settled opens unclosed, replaceSpans, List.drop_left]
          exact .unclosed settled opens unclosed
      · have free (alone : before.getLast?.any joins = false) (settled : (Mode.code.run before).isSettled) :
            ¬ Opens (c :: rest) :=
          fun opens => hit ⟨alone, settled, opens⟩
        have starts (span : Span) (mem : span ∈ spansBehind (before ++ [c]) rest) : before.length + 1 ≤ span.start := by
          have := start_mem_collectSpans (fun call => start_mem_callsFrom) mem
          simpa using this
        have later := ih rest.length (by simp) (before ++ [c]) rest site rfl
        rw [List.getLast?_concat, Option.any_some, Mode.run_append, List.length_append, List.append_assoc] at later
        rw [spansBehind_cons free, replaceSpans_cons starts]
        exact .kept free later

end LineProbe
