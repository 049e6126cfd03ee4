import LineProbe.Proofs.Replacement

/-!
# Where blocking calls begin

A blocking call begins at a code character, with a name that no character before it extends, and its parenthesis may
stand far behind the name.
-/

namespace LineProbe

open Text

/-! ## Calls and bare names -/

def Bare (text : Text) : Prop :=
  ∃ name ∈ blockingNames, ∃ blanks, text = name ++ blanks ∧ ∀ c ∈ blanks, isBlankChar c = true

def OpensParen (text : Text) : Prop :=
  (trimLeft text).head? = some '('

def Stops (text : Text) : Prop :=
  ∀ c ∈ text.head?, joins c = false

theorem Opens.append (h : Opens text) (rest : Text) : Opens (text ++ rest) := by
  obtain ⟨name, named, blanks, behind, rfl, blank⟩ := h
  exact ⟨name, named, blanks, behind ++ rest, by simp, blank⟩

theorem Bare.opens (h : Bare text) (paren : OpensParen behind) : Opens (text ++ behind) := by
  obtain ⟨name, named, blanks, rfl, blank⟩ := h
  obtain ⟨rest, trimmed⟩ : ∃ rest, trimLeft behind = '(' :: rest := by
    cases trimmed : trimLeft behind with
    | nil => simp [OpensParen, trimmed] at paren
    | cons c rest =>
      rw [OpensParen, trimmed] at paren
      exact ⟨rest, by rw [Option.some.inj paren]⟩
  refine ⟨name, named, blanks ++ leadingBlanks behind, rest, ?_, ?_⟩
  · rw [List.append_assoc, List.append_assoc, ← trimmed, leadingBlanks_append_trimLeft]
  · exact List.forall_mem_append.2 ⟨blank, fun c => isBlankChar_of_mem_leadingBlanks⟩

theorem opensParen_blanks (blank : ∀ c ∈ blanks, isBlankChar c) : OpensParen (blanks ++ '(' :: rest) := by
  rw [OpensParen, trimLeft_append_of_blank blank, trimLeft_of_head (by simp; decide)]
  rfl

theorem OpensParen.stops (h : OpensParen text) : Stops text := by
  cases text with
  | nil => cases h
  | cons d rest =>
    rintro c ⟨⟩
    by_cases blank : isBlankChar d
    · exact joins_of_isBlankChar blank
    · rw [OpensParen, trimLeft_of_head (by rintro _ ⟨⟩; simpa using blank)] at h
      cases h
      decide

theorem Stops.not_word (h : Stops text) : ∀ c ∈ text.head?, isWordChar c = false :=
  fun c head => (Bool.or_eq_false_iff.1 (h c head)).1

theorem Opens.cases (h : Opens (text ++ behind)) :
    Opens text ∨ Bare text ∧ OpensParen behind ∨ (∀ c ∈ text, joins c) ∧ ¬ Stops behind := by
  obtain ⟨name, named, blanks, rest, whole, blank⟩ := h
  rcases List.append_eq_append_iff.1 whole with ⟨between, rfl, rfl⟩ | ⟨between, rfl, tail⟩
  · cases between with
    | nil =>
      rw [List.append_nil] at named
      exact .inr (.inl ⟨⟨text, named, [], by simp, by simp⟩, opensParen_blanks blank⟩)
    | cons c between =>
      have all (d : Char) (mem : d ∈ text ++ c :: between) := joins_of_mem_blockingNames named mem
      refine .inr (.inr ⟨fun d mem => all d (List.mem_append_left _ mem), fun stops => ?_⟩)
      have := stops c (by simp)
      rw [all c (by simp)] at this
      cases this
  · rcases List.append_eq_append_iff.1 tail with ⟨more, rfl, rest_⟩ | ⟨more, rfl, rfl⟩
    · cases more with
      | nil =>
        rw [List.nil_append] at rest_
        subst rest_
        exact .inr (.inl ⟨⟨name, named, blanks, by simp, blank⟩, opensParen_blanks (List.forall_mem_nil _)⟩)
      | cons c more =>
        obtain ⟨rfl, rfl⟩ := List.cons.inj rest_
        exact .inl ⟨name, named, blanks, more, rfl, blank⟩
    · rw [List.forall_mem_append] at blank
      exact .inr (.inl ⟨⟨name, named, between, rfl, blank.1⟩, opensParen_blanks blank.2⟩)

theorem Bare.last (h : Bare (text ++ [c])) : isBlankChar c ∨ c ∈ "edst".toList := by
  obtain ⟨name, named, blanks, whole, blank⟩ := h
  have last := congrArg List.getLast? whole
  rw [List.getLast?_concat, List.getLast?_append] at last
  cases found : blanks.getLast? with
  | none =>
    rw [found, Option.none_or] at last
    have all : ∀ name ∈ blockingNames, name.getLast?.all "edst".toList.contains := by decide +kernel
    have known := all name named
    rw [← last] at known
    exact .inr (List.contains_iff_mem.1 known)
  | some d =>
    rw [found] at last
    cases last
    exact .inl (blank c (List.mem_of_getLast? found))

/-! ## Silent texts -/

def Silent (behind : Text) (previous : Option Char) (mode : Mode) (text : Text) : Prop :=
  ∀ part rest, text = part ++ rest → rest ≠ [] → (part.getLast?.or previous).any joins = false →
    (mode.run part).isSettled = true → ¬ Opens (rest ++ behind)

theorem silent_nil (behind : Text) (previous : Option Char) (mode : Mode) : Silent behind previous mode [] := by
  intro part rest whole nonempty
  exact absurd (List.append_eq_nil_iff.1 whole.symm).2 nonempty

theorem silent_append :
    Silent behind previous mode (first ++ last) ↔
      Silent (last ++ behind) previous mode first ∧
        Silent behind (first.getLast?.or previous) (mode.run first) last := by
  constructor
  · intro h
    constructor
    · intro part rest whole nonempty apart settled
      subst whole
      rw [← List.append_assoc]
      exact h part (rest ++ last) (by simp) (by simp [nonempty]) apart settled
    · intro part rest whole nonempty apart settled
      subst whole
      refine h (first ++ part) rest (by simp) nonempty ?_ ?_
      · rwa [getLast?_append_or]
      · rwa [Mode.run_append]
  · rintro ⟨front, back⟩ part rest whole nonempty apart settled
    rcases List.append_eq_append_iff.1 whole with ⟨more, rfl, rfl⟩ | ⟨more, rfl, rfl⟩
    · rw [getLast?_append_or] at apart
      rw [Mode.run_append] at settled
      exact back more rest rfl nonempty apart settled
    · by_cases empty : more = []
      · subst empty
        exact back [] last rfl nonempty (by simpa using apart) (by simpa using settled)
      · rw [List.append_assoc]
        exact front part more rfl empty apart settled

theorem silent_cons :
    Silent behind previous mode (c :: rest) ↔
      (previous.any joins = false → mode.isSettled → ¬ Opens (c :: (rest ++ behind))) ∧
        Silent behind (some c) (mode.next c) rest := by
  rw [← List.singleton_append, silent_append]
  refine and_congr ⟨fun h apart settled => ?_, fun h => ?_⟩ Iff.rfl
  · exact h [] [c] rfl (by simp) (by simpa using apart) settled
  · intro part last whole nonempty apart settled
    obtain ⟨rfl, rfl⟩ | ⟨-, rfl⟩ := List.singleton_eq_append_iff.1 whole
    · exact h (by simpa using apart) settled
    · exact absurd rfl nonempty

namespace Silent

theorem inert (h : Silent behind previous mode text) (stops : Stops behind') (other : ¬ OpensParen behind') :
    Silent behind' previous mode text := by
  intro part rest whole nonempty apart settled opens
  rcases opens.cases with inside | ⟨-, paren⟩ | ⟨-, goesOn⟩
  · exact h part rest whole nonempty apart settled (inside.append behind)
  · exact other paren
  · exact goesOn stops

theorem before (h : Silent ['('] previous mode text) (stops : Stops behind) : Silent behind previous mode text := by
  intro part rest whole nonempty apart settled opens
  rcases opens.cases with inside | ⟨bare, -⟩ | ⟨-, goesOn⟩
  · exact h part rest whole nonempty apart settled (inside.append _)
  · exact h part rest whole nonempty apart settled (bare.opens rfl)
  · exact goesOn stops

theorem of_last (h : Silent behind previous mode (text ++ [c])) (blank : isBlankChar c = false)
    (other : c ∉ "edst".toList) (stops : joins c → Stops behind') : Silent behind' previous mode (text ++ [c]) := by
  intro part rest whole nonempty apart settled opens
  obtain ⟨front, last, rfl⟩ : ∃ front last, rest = front ++ [last] :=
    ⟨rest.dropLast, rest.getLast nonempty, (List.dropLast_concat_getLast nonempty).symm⟩
  rw [← List.append_assoc] at whole
  obtain ⟨-, same⟩ := List.append_inj' whole rfl
  cases same
  rcases opens.cases with inside | ⟨bare, -⟩ | ⟨name, goesOn⟩
  · exact h part _ (by rw [whole, List.append_assoc]) nonempty apart settled (inside.append behind)
  · rcases bare.last with white | letter
    · rw [blank] at white
      cases white
    · exact other letter
  · exact goesOn (stops (name c (by simp)))

theorem behind_of (h : Silent behind previous mode text)
    (same : previous'.any joins = false → previous.any joins = false) : Silent behind previous' mode text := by
  intro part rest whole nonempty apart settled
  refine h part rest whole nonempty ?_ settled
  cases last : part.getLast? with
  | none =>
    rw [last, Option.none_or] at apart
    exact same apart
  | some c => simpa [last] using apart

theorem of_none (h : Silent behind none mode text) : Silent behind previous mode text :=
  h.behind_of fun _ => rfl

theorem of_head (h : Silent behind previous mode text) (other : ∀ c ∈ text.head?, isWordChar c = false) :
    Silent behind previous' mode text := by
  cases text with
  | nil => exact silent_nil _ _ _
  | cons c rest =>
    rw [silent_cons] at h ⊢
    refine ⟨fun _ _ opens => ?_, h.2⟩
    have := other c rfl
    rw [opens.word_head] at this
    cases this

end Silent

theorem silent_of_no_paren (free : '(' ∉ text) (stops : Stops behind) (other : ¬ OpensParen behind) :
    Silent behind previous mode text := by
  intro part rest whole nonempty apart settled opens
  rcases opens.cases with inside | ⟨-, paren⟩ | ⟨-, goesOn⟩
  · exact free (by rw [whole]; exact List.mem_append_right _ inside.paren_mem)
  · exact other paren
  · exact goesOn stops

theorem silent_blanks (blank : ∀ c ∈ blanks, isBlankChar c) : Silent behind previous mode blanks := by
  intro part rest whole nonempty apart settled opens
  cases rest with
  | nil => exact nonempty rfl
  | cons c rest =>
    have apart := joins_of_isBlankChar (blank c (by simp [whole]))
    rw [opens.joins_head] at apart
    cases apart

/-! ## Calls of a code -/

/-- The blocking calls of a code, from left to right. A call may stand inside of another one. -/
def blockingCalls (code : Text) : List NamedCall :=
  (namedCalls blockingNames joins code).filter fun call => ((places code).map Place.index).contains call.start

def endsInName (text : Text) : Bool :=
  (blockingCalls (text ++ ['('])).any fun call => call.openParen == text.length

theorem mem_callsFrom_iff :
    call ∈ callsFrom names stops previous index text ↔ ∃ part rest offset, text = part ++ rest ∧ rest ≠ [] ∧
      (part.getLast?.or previous).any stops = false ∧ callAtStart? names rest = some (call.name, offset) ∧
      call.start = index + part.length ∧ call.openParen = index + part.length + offset := by
  induction text generalizing previous index with
  | nil =>
    refine ⟨fun h => (nomatch h), ?_⟩
    rintro ⟨part, rest, offset, whole, nonempty, -⟩
    exact absurd (List.append_eq_nil_iff.1 whole.symm).2 nonempty
  | cons c text ih =>
    have later : call ∈ callsFrom names stops (some c) (index + 1) text ↔ ∃ part rest offset, c :: text = part ++ rest ∧
        part ≠ [] ∧ rest ≠ [] ∧ (part.getLast?.or previous).any stops = false ∧
        callAtStart? names rest = some (call.name, offset) ∧ call.start = index + part.length ∧
        call.openParen = index + part.length + offset := by
      rw [ih]
      constructor
      · rintro ⟨part, rest, offset, rfl, nonempty, apart, found, start, paren⟩
        refine ⟨c :: part, rest, offset, rfl, by simp, nonempty, by rwa [getLast?_cons_or], found, ?_, ?_⟩
        · rw [start, List.length_cons]
          omega
        · rw [paren, List.length_cons]
          omega
      · rintro ⟨part, rest, offset, whole, front, nonempty, apart, found, start, paren⟩
        obtain ⟨d, part, rfl⟩ := List.exists_cons_of_ne_nil front
        obtain ⟨rfl, rfl⟩ := List.cons.inj whole
        rw [getLast?_cons_or] at apart
        refine ⟨part, rest, offset, rfl, nonempty, apart, found, ?_, ?_⟩
        · rw [start, List.length_cons]
          omega
        · rw [paren, List.length_cons]
          omega
    have here : call ∈ callsFrom names stops previous index (c :: text) ↔
        (previous.any stops = false ∧ ∃ offset, callAtStart? names (c :: text) = some (call.name, offset) ∧
          call.start = index ∧ call.openParen = index + offset) ∨
          call ∈ callsFrom names stops (some c) (index + 1) text := by
      obtain ⟨name, start, openParen⟩ := call
      rw [callsFrom]
      cases apart : previous.any stops with
      | true => simp
      | false =>
        cases found : callAtStart? names (c :: text) with
        | none => simp
        | some call =>
          obtain ⟨name', offset⟩ := call
          simp only [Bool.false_eq_true, if_false, List.mem_cons, NamedCall.mk.injEq, Option.some.injEq, Prod.mk.injEq,
            true_and]
          refine or_congr ⟨?_, ?_⟩ Iff.rfl
          · rintro ⟨rfl, rfl, rfl⟩
            exact ⟨offset, ⟨rfl, rfl⟩, rfl, rfl⟩
          · rintro ⟨_, ⟨rfl, rfl⟩, rfl, rfl⟩
            exact ⟨rfl, rfl, rfl⟩
    rw [here, later]
    constructor
    · rintro (⟨apart, offset, found, start, paren⟩ | ⟨part, rest, offset, whole, -, others⟩)
      · exact ⟨[], c :: text, offset, rfl, by simp, by simpa using apart, found, by simpa using start, by simpa using paren⟩
      · exact ⟨part, rest, offset, whole, others⟩
    · rintro ⟨part, rest, offset, whole, nonempty, apart, found, start, paren⟩
      by_cases front : part = []
      · subst front
        obtain rfl : c :: text = rest := whole
        exact .inl ⟨by simpa using apart, offset, found, by simpa using start, by simpa using paren⟩
      · exact .inr ⟨part, rest, offset, whole, front, nonempty, apart, found, start, paren⟩

theorem mem_blockingCalls_iff :
    call ∈ blockingCalls code ↔ ∃ part rest offset, code = part ++ rest ∧ part.getLast?.any joins = false ∧
      (Mode.code.run part).isSettled ∧ callAtStart? blockingNames rest = some (call.name, offset) ∧
      call.start = part.length ∧ call.openParen = part.length + offset := by
  have place {part rest : Text} {name : Text} {offset : Nat} (found : callAtStart? blockingNames rest = some (name, offset)) :
      ((places (part ++ rest)).map Place.index).contains part.length = (Mode.code.run part).isSettled := by
    have opens := callAtStart?_isSome_iff.1 (by rw [found]; rfl)
    cases rest with
    | nil => exact absurd opens.paren_mem (by simp)
    | cons c rest => rw [contains_index_places, Mode.readsCode_of_joins opens.joins_head]
  rw [blockingCalls, List.mem_filter, namedCalls, mem_callsFrom_iff]
  simp only [Nat.zero_add, Option.or_none]
  constructor
  · rintro ⟨⟨part, rest, offset, rfl, -, apart, found, start, paren⟩, isCode⟩
    rw [start, place found] at isCode
    exact ⟨part, rest, offset, rfl, apart, isCode, found, start, paren⟩
  · rintro ⟨part, rest, offset, rfl, apart, settled, found, start, paren⟩
    refine ⟨⟨part, rest, offset, rfl, ?_, apart, found, start, paren⟩, by rwa [start, place found]⟩
    rintro rfl
    exact absurd (callAtStart?_isSome_iff.1 (by rw [found]; rfl)).paren_mem (by simp)

theorem blockingCalls_eq_nil_iff : blockingCalls code = [] ↔ Silent [] none .code code := by
  constructor
  · intro none_ part rest whole _ apart settled opens
    rw [List.append_nil] at opens
    obtain ⟨⟨name, offset⟩, found⟩ := Option.isSome_iff_exists.1 (callAtStart?_isSome_iff.2 opens)
    have mem : (⟨name, part.length, part.length + offset⟩ : NamedCall) ∈ blockingCalls code :=
      mem_blockingCalls_iff.2 ⟨part, rest, offset, whole, by simpa using apart, settled, found, rfl, rfl⟩
    rw [none_] at mem
    cases mem
  · intro silent
    refine List.eq_nil_iff_forall_not_mem.2 fun call mem => ?_
    obtain ⟨part, rest, offset, whole, apart, settled, found, -, -⟩ := mem_blockingCalls_iff.1 mem
    have opens := callAtStart?_isSome_iff.1 (by rw [found]; rfl)
    refine silent part rest whole ?_ (by simpa using apart) settled (by simpa using opens)
    rintro rfl
    exact absurd opens.paren_mem (by simp)

theorem hasBlockingCall_eq_false (h : Silent [] none .code code) : hasBlockingCall code = false := by
  have skipped {isCode : Nat → Bool} {position : Nat} {calls : List NamedCall}
      (free : ∀ call ∈ calls, isCode call.start = false) : collectSpans code isCode position calls = [] := by
    induction calls with
    | nil => rfl
    | cons call calls ih =>
      rw [List.forall_mem_cons] at free
      rw [collectSpans, free.1, Bool.not_false, Bool.or_true, if_pos rfl, ih free.2]
  have none_ := blockingCalls_eq_nil_iff.2 h
  rw [blockingCalls, List.filter_eq_nil_iff] at none_
  have spans : blockingSpans code = [] := skipped fun call mem => by simpa using none_ call mem
  rw [hasBlockingCall, spans]
  rfl

theorem Bare.paren_not_mem (h : Bare text) : '(' ∉ text := by
  obtain ⟨name, named, blanks, rfl, blank⟩ := h
  rw [List.mem_append, not_or]
  exact ⟨fun mem => absurd (joins_of_mem_blockingNames named mem) (by decide), fun mem => absurd (blank _ mem) (by decide)⟩

theorem Bare.callAtStart? (h : Bare text) :
    ∃ name, LineProbe.callAtStart? blockingNames (text ++ ['(']) = some (name, text.length) := by
  have opens : Opens (text ++ ['(']) := h.opens (opensParen_blanks (List.forall_mem_nil _))
  obtain ⟨⟨name, offset⟩, found⟩ := Option.isSome_iff_exists.1 (callAtStart?_isSome_iff.2 opens)
  obtain ⟨-, blanks, rest, whole, -, rfl⟩ := callAtStart?_spec found
  refine ⟨name, ?_⟩
  -- There is no parenthesis in the text, so the one that was found is the one behind it.
  rw [← List.append_assoc] at whole
  rcases List.append_eq_append_iff.1 whole with ⟨more, front, tail⟩ | ⟨more, front, tail⟩
  · cases more with
    | nil => rw [found, front, List.append_nil]
    | cons c more => simp at tail
  · cases more with
    | nil => rw [found, front, List.append_nil]
    | cons c more =>
      have same := (List.cons.inj tail).1
      exact absurd (by rw [front, ← same]; simp) h.paren_not_mem

theorem Silent.paren (h : Silent behind front.getLast? (Mode.code.run front) text)
    (free : endsInName (front ++ text) = false) : Silent ['('] front.getLast? (Mode.code.run front) text := by
  intro part rest whole nonempty apart settled opens
  rcases opens.cases with inside | ⟨bare, -⟩ | ⟨-, goesOn⟩
  · exact h part rest whole nonempty apart settled (inside.append behind)
  · obtain ⟨name, found⟩ := bare.callAtStart?
    have mem : (⟨name, (front ++ part).length, (front ++ part).length + rest.length⟩ : NamedCall) ∈
        blockingCalls (front ++ text ++ ['(']) := by
      refine mem_blockingCalls_iff.2 ⟨front ++ part, rest ++ ['('], rest.length, by simp [whole], ?_, ?_, found, rfl, rfl⟩
      · rwa [List.getLast?_append]
      · rwa [Mode.run_append]
    have length : (front ++ part).length + rest.length = (front ++ text).length := by
      simp [whole, Nat.add_assoc]
    rw [endsInName, List.any_eq_false] at free
    exact free _ mem (beq_iff_eq.2 length)
  · exact goesOn (by rintro c ⟨⟩; decide)

/-! ## Fronts -/

theorem Bracketed.exists_inner (h : Bracketed text) : ∃ inner, text = '(' :: (inner ++ [')']) ∧ Closed inner := by
  cases h with
  | intro closed => exact ⟨_, rfl, closed⟩

theorem Bare.mem_blockingNames (h : Bare word) (chars : ∀ c ∈ word, joins c) : word ∈ blockingNames := by
  obtain ⟨name, named, blanks, rfl, blank⟩ := h
  cases blanks with
  | nil => rwa [List.append_nil]
  | cons c blanks =>
    have apart := joins_of_isBlankChar (blank c List.mem_cons_self)
    rw [chars c (by simp)] at apart
    cases apart

theorem silent_word (chars : ∀ c ∈ word, joins c) (stops : Stops behind)
    (other : word ∈ blockingNames → ¬ OpensParen behind) : Silent behind previous mode word := by
  intro part rest whole nonempty apart settled opens
  cases last : part.getLast? with
  | none =>
    obtain rfl := List.getLast?_eq_none_iff.1 last
    obtain rfl : word = rest := whole
    rcases opens.cases with inside | ⟨bare, paren⟩ | ⟨-, goesOn⟩
    · exact absurd (chars _ inside.paren_mem) (by decide)
    · exact other (bare.mem_blockingNames chars) paren
    · exact goesOn stops
  | some c =>
    have mem : c ∈ word := by
      rw [whole]
      exact List.mem_append_left _ (List.mem_of_getLast? last)
    rw [last, Option.some_or, Option.any_some, chars c mem] at apart
    cases apart

theorem stops_blanks (filled : blanks ≠ []) (blank : ∀ c ∈ blanks, isBlankChar c) (rest : Text) :
    Stops (blanks ++ rest) := by
  obtain ⟨d, blanks, rfl⟩ := List.exists_cons_of_ne_nil filled
  rintro c ⟨⟩
  exact joins_of_isBlankChar (blank _ List.mem_cons_self)

theorem joins_getLast?_blanks (filled : blanks ≠ []) (blank : ∀ c ∈ blanks, isBlankChar c) :
    (front ++ blanks).getLast?.any joins = false := by
  rw [List.getLast?_append, List.getLast?_eq_some_getLast filled]
  exact joins_of_isBlankChar (blank _ (List.getLast_mem filled))

theorem silent_spaced (chars : ∀ c ∈ word, joins c) (other : word ∉ blockingNames) (filled : blanks ≠ [])
    (blank : ∀ c ∈ blanks, isBlankChar c) : Silent behind previous mode (word ++ blanks) :=
  silent_append.2 ⟨silent_word chars (stops_blanks filled blank behind) fun mem => absurd mem other, silent_blanks blank⟩

theorem BlockingCall.not_opensParen (h : BlockingCall first) (rest : Text) : ¬ OpensParen (first ++ rest) := by
  intro paren
  have opens := h.opens rest
  obtain ⟨c, first, rfl⟩ := List.exists_cons_of_ne_nil h.operand.ne_nil
  have word : isWordChar c := opens.word_head
  rw [OpensParen, List.cons_append, trimLeft_of_head (by rintro d ⟨⟩; exact isBlankChar_of_isWordChar word)] at paren
  cases paren
  exact absurd word (by decide)

namespace Exchanged

variable {mode : Mode} {index site : Nat} {front rest code code' : Text}

theorem past_front {previous : Option Char}
    (h : Exchanged value (previous.any joins) mode index site spans (front ++ rest) code')
    (silent : Silent rest previous mode front) :
    ∃ rest', code' = front ++ rest' ∧ Exchanged value ((front.getLast?.or previous).any joins) (mode.run front)
      (index + front.length) site spans rest rest' := by
  induction front generalizing previous mode index code' with
  | nil => exact ⟨code', rfl, h⟩
  | cons c front ih =>
    obtain ⟨free, silent⟩ := silent_cons.1 silent
    obtain ⟨between, rfl, later⟩ := h.kept_of_free free
    obtain ⟨rest', rfl, behind⟩ := @ih (mode.next c) (index + 1) between (some c) later silent
    rw [Nat.add_right_comm] at behind
    exact ⟨rest', rfl, by rwa [getLast?_cons_or]⟩

theorem of_front {previous : Option Char} {rest' : Text}
    (h : Exchanged value (previous.any joins) mode index site spans code (front ++ rest')) (plain : '(' ∉ front)
    (values : ∀ site, Bracketed (value site)) :
    code = front ++ rest' ∨ ∃ rest, code = front ++ rest ∧ Exchanged value ((front.getLast?.or previous).any joins)
      (mode.run front) (index + front.length) site spans rest rest' := by
  induction front generalizing previous mode index code with
  | nil => exact .inr ⟨code, rfl, h⟩
  | cons c front ih =>
    rw [List.mem_cons, not_or] at plain
    generalize whole : c :: front ++ rest' = code' at h
    generalize joined : previous.any joins = joined_ at h
    cases h with
    | nil => cases whole
    | kept _ later =>
      cases whole
      rcases @ih (mode.next c) (index + 1) _ (some c) later plain.2 with same | ⟨rest, same, behind⟩
      · exact .inl (congrArg (c :: ·) same)
      · rw [Nat.add_right_comm] at behind
        exact .inr ⟨rest, congrArg (c :: ·) same, by rwa [getLast?_cons_or]⟩
    | call _ _ _ =>
      obtain ⟨inner, replaced, -⟩ := (values site).exists_inner
      rw [replaced] at whole
      exact absurd (List.cons.inj whole).1.symm plain.1
    | unclosed _ _ _ => exact .inl rfl

theorem of_paren (h : Exchanged value joined mode index site spans code ('(' :: rest')) :
    (∃ rest, code = '(' :: rest ∧ Exchanged value false (mode.next '(') (index + 1) site spans rest rest') ∨
      joined = false ∧ ∃ first rest behind' later, BlockingCall first ∧ code = first ++ rest ∧
        '(' :: rest' = value site ++ behind' ∧
        Exchanged value false .code (index + first.length) (site + 1) later rest behind' := by
  generalize whole : '(' :: rest' = code' at h
  cases h with
  | nil => cases whole
  | kept _ later =>
    cases whole
    exact .inl ⟨_, rfl, later⟩
  | call _ call later => exact .inr ⟨rfl, _, _, _, _, call, rfl, rfl, later⟩
  | unclosed _ opens _ =>
    rw [← whole] at opens
    exact absurd opens.joins_head (by decide)

variable (chars : ∀ c ∈ front, Construct.isTargetChar c = true)

include chars

theorem settled_front : (Mode.code.run front).isSettled :=
  (Mode.depthRun_quiet rfl (fun c mem => Construct.isQuiet_of_isTargetChar (chars c mem)) 0).1

theorem next_front : (Mode.code.run front).next '(' = .code :=
  Mode.next_of_readsCode (Mode.readsCode_of_settled (settled_front chars) (by decide))

theorem opened (h : Exchanged value false .code index site spans (front ++ '(' :: rest) code')
    (silent : Silent ('(' :: rest) none .code front) (values : ∀ site, Bracketed (value site)) :
    ∃ rest', code' = front ++ '(' :: rest' ∧ Swapped Operand false .code rest rest' := by
  obtain ⟨between, rfl, later⟩ := @past_front _ _ _ _ _ _ _ _ none h silent
  obtain ⟨rest', rfl, inside⟩ := later.kept_of_free fun _ _ opens => absurd opens.joins_head (by decide)
  rw [next_front chars] at inside
  exact ⟨rest', rfl, (inside.swapped values).operands⟩

theorem called (h : Exchanged value false .code index site spans (front ++ (first ++ rest)) code')
    (silent : Silent (first ++ rest) none .code front) (apart : front.getLast?.any joins = false)
    (call : BlockingCall first) (values : ∀ site, Bracketed (value site)) :
    ∃ inner' behind', code' = front ++ '(' :: (inner' ++ ')' :: behind') ∧ Closed inner' ∧
      Swapped Operand false .code rest behind' := by
  obtain ⟨between, rfl, later⟩ := @past_front _ _ _ _ _ _ _ _ none h silent
  rw [Option.or_none, apart] at later
  obtain ⟨behind', _, rfl, behind⟩ := later.of_call (settled_front chars) call
  obtain ⟨inner', replaced, closed⟩ := (values site).exists_inner
  exact ⟨inner', behind', by simp [replaced], closed, (behind.swapped values).operands⟩

theorem of_opened (h : Exchanged value false .code index site spans code (front ++ '(' :: rest'))
    (values : ∀ site, Bracketed (value site)) :
    (∃ rest, code = front ++ '(' :: rest ∧ Swapped Operand false .code rest rest') ∨
      front.getLast?.any joins = false ∧ ∃ first rest inner' behind', BlockingCall first ∧ code = front ++ (first ++ rest) ∧
        rest' = inner' ++ ')' :: behind' ∧ Closed inner' ∧ Swapped Operand false .code rest behind' := by
  have plain : '(' ∉ front := fun mem => absurd (chars _ mem) (by decide)
  rcases @of_front _ _ _ _ _ _ _ none _ h plain values with rfl | ⟨between, rfl, later⟩
  · exact .inl ⟨rest', rfl, .refl ..⟩
  · rcases later.of_paren with ⟨rest, rfl, inside⟩ | ⟨apart, first, rest, behind', _, call, rfl, whole, behind⟩
    · rw [next_front chars] at inside
      exact .inl ⟨rest, rfl, (inside.swapped values).operands⟩
    · obtain ⟨inner', replaced, closed⟩ := (values site).exists_inner
      rw [replaced] at whole
      rw [Option.or_none] at apart
      refine .inr ⟨apart, first, rest, inner', behind', call, rfl, ?_, closed, (behind.swapped values).operands⟩
      simpa using whole

end Exchanged

end LineProbe
