import LineProbe.Proofs.Silence

/-!
# The header of a function

A header is `def`, or `async def`, a name, and a bracketed text, with white space between them, and it ends with a
colon: `defParts?_iff_shape`.
-/

namespace LineProbe.Construct

open Text

/-! ## Words with white space behind them -/

theorem afterSpacedWord?_spec (h : afterSpacedWord? word text = some rest) :
    ∃ blanks, text = word ++ (blanks ++ rest) ∧ blanks ≠ [] ∧ ∀ c ∈ blanks, isBlankChar c := by
  simp only [afterSpacedWord?, Option.ite_none_right_eq_some, Option.some.injEq] at h
  obtain ⟨starts, spaced, rfl⟩ := h
  obtain ⟨tail, rfl⟩ := startsWith_eq_true starts
  rw [List.drop_left] at *
  refine ⟨leadingBlanks tail, by rw [leadingBlanks_append_trimLeft], ?_, fun c => isBlankChar_of_mem_leadingBlanks⟩
  cases tail with
  | nil => cases spaced
  | cons c tail =>
    have blank : isBlankChar c := by simpa using spaced
    simp [leadingBlanks, blank]

theorem afterSpacedWord?_append (spaced : blanks ≠ []) (blank : ∀ c ∈ blanks, isBlankChar c)
    (visible : ∀ c ∈ rest.head?, isBlankChar c = false) :
    afterSpacedWord? word (word ++ (blanks ++ rest)) = some rest := by
  have starts : startsWith (word ++ (blanks ++ rest)) word :=
    List.isPrefixOf_iff_prefix.2 (List.prefix_append _ _)
  have spaced : (blanks ++ rest).head?.any isBlankChar := by
    obtain ⟨c, tail, rfl⟩ := List.exists_cons_of_ne_nil spaced
    exact blank c List.mem_cons_self
  rw [afterSpacedWord?, if_pos starts]
  dsimp only
  rw [List.drop_left, if_pos spaced, trimLeft_append_of_blank blank, trimLeft_of_head visible]

theorem afterSpacedWord?_iff :
    afterSpacedWord? word text = some rest ↔ (∃ blanks, text = word ++ (blanks ++ rest) ∧ blanks ≠ [] ∧
      ∀ c ∈ blanks, isBlankChar c) ∧ ∀ c ∈ rest.head?, isBlankChar c = false := by
  constructor
  · intro h
    refine ⟨afterSpacedWord?_spec h, ?_⟩
    simp only [afterSpacedWord?, Option.ite_none_right_eq_some, Option.some.injEq] at h
    obtain ⟨-, -, rfl⟩ := h
    intro c head
    obtain ⟨tail, trimmed⟩ := List.head?_eq_some_iff.1 head
    exact trimLeft_eq_cons trimmed
  · rintro ⟨⟨blanks, rfl, filled, blank⟩, visible⟩
    exact afterSpacedWord?_append filled blank visible

/-! ## Headers -/

inductive DefLead : Text → Prop where
  | sync {blanks : Text} (filled : blanks ≠ []) (blank : ∀ c ∈ blanks, isBlankChar c = true) :
    DefLead ("def".toList ++ blanks)
  | async {blanks blanks' : Text} (filled : blanks ≠ []) (blank : ∀ c ∈ blanks, isBlankChar c = true)
    (filled' : blanks' ≠ []) (blank' : ∀ c ∈ blanks', isBlankChar c = true) :
    DefLead (("async".toList ++ blanks) ++ ("def".toList ++ blanks'))

theorem afterSpacedWord?_def_iff :
    afterSpacedWord? "def" ((afterSpacedWord? "async" code).getD code) = some rest ↔
      (∃ lead, DefLead lead ∧ code = lead ++ rest) ∧ ∀ c ∈ rest.head?, isBlankChar c = false := by
  constructor
  · intro h
    obtain ⟨⟨blanks', whole, filled', blank'⟩, visible⟩ := afterSpacedWord?_iff.1 h
    refine ⟨?_, visible⟩
    cases found : afterSpacedWord? "async" code with
    | none =>
      rw [found, Option.getD_none] at whole
      exact ⟨_, .sync filled' blank', by rw [whole, List.append_assoc]⟩
    | some start =>
      rw [found, Option.getD_some] at whole
      obtain ⟨⟨blanks, rfl, filled, blank⟩, -⟩ := afterSpacedWord?_iff.1 found
      exact ⟨_, .async filled blank filled' blank', by rw [whole]; simp only [List.append_assoc]⟩
  · rintro ⟨⟨lead, leads, rfl⟩, visible⟩
    cases leads with
    | @sync blanks filled blank =>
      have other : afterSpacedWord? "async" (("def".toList ++ blanks) ++ rest) = none := rfl
      rw [other, Option.getD_none, List.append_assoc]
      exact afterSpacedWord?_iff.2 ⟨⟨blanks, rfl, filled, blank⟩, visible⟩
    | @async blanks blanks' filled blank filled' blank' =>
      have found : afterSpacedWord? "async" ((("async".toList ++ blanks) ++ ("def".toList ++ blanks')) ++ rest) =
          some ("def".toList ++ (blanks' ++ rest)) :=
        afterSpacedWord?_iff.2 ⟨⟨blanks, by simp only [List.append_assoc], filled, blank⟩, by rintro c ⟨⟩; decide⟩
      rw [found, Option.getD_some]
      exact afterSpacedWord?_iff.2 ⟨⟨blanks', rfl, filled', blank'⟩, visible⟩

inductive DefFront : (front name : Text) → Prop where
  | intro {lead name blanks : Text} (leads : DefLead lead) (plain : nameAtStart name = name) (named : name ≠ [])
    (blank : ∀ c ∈ blanks, isBlankChar c = true) : DefFront (lead ++ (name ++ blanks)) name

theorem endsWithChar_closer (front : Text) (closes : isCloser close) :
    endsWithChar (front ++ close :: behind) ':' = endsWithChar behind ':' := by
  rw [Text.endsWithChar_append _ (List.cons_ne_nil _ _)]
  cases behind with
  | nil =>
    simp only [isCloser, Bool.or_eq_true, beq_iff_eq] at closes
    rcases closes with (rfl | rfl) | rfl <;> decide
  | cons c behind => exact Text.endsWithChar_append [close] (List.cons_ne_nil _ _) _

namespace DefLead

theorem chars (h : DefLead lead) : ∀ c ∈ lead, isTargetChar c := by
  have words : ∀ c ∈ "async".toList ++ "def".toList, isTargetChar c := by decide
  cases h with
  | sync filled blank =>
    refine List.forall_mem_append.2 ⟨fun c mem => words c (List.mem_append_right _ mem), fun c mem => ?_⟩
    exact isTargetChar_of_isBlankChar (blank c mem)
  | async filled blank filled' blank' =>
    simp only [List.forall_mem_append] at words ⊢
    exact ⟨⟨words.1, fun c mem => isTargetChar_of_isBlankChar (blank c mem)⟩, words.2,
      fun c mem => isTargetChar_of_isBlankChar (blank' c mem)⟩

theorem silent (h : DefLead lead) (rest : Text) : Silent rest none .code lead := by
  cases h with
  | sync filled blank => exact silent_spaced (by decide) (by decide) filled blank
  | async filled blank filled' blank' =>
    exact silent_append.2 ⟨silent_spaced (by decide) (by decide) filled blank,
      silent_spaced (by decide) (by decide) filled' blank'⟩

theorem apart (h : DefLead lead) : lead.getLast?.any joins = false := by
  cases h with
  | sync filled blank => exact joins_getLast?_blanks filled blank
  | async filled blank filled' blank' =>
    rw [← List.append_assoc]
    exact joins_getLast?_blanks filled' blank'

end DefLead

namespace DefFront

theorem chars (h : DefFront front name) : ∀ c ∈ front, isTargetChar c := by
  cases h with
  | intro leads plain named blank =>
    simp only [List.forall_mem_append]
    refine ⟨leads.chars, fun c mem => isTargetChar_of_mem_nameAtStart (plain.symm ▸ mem), fun c mem => ?_⟩
    exact isTargetChar_of_isBlankChar (blank c mem)

theorem parts (h : DefFront front name) (ended : front.getLast?.any joins = false ∨ Stops rest) :
    ∃ lead blanks, front = lead ++ (name ++ blanks) ∧ DefLead lead ∧ nameAtStart name = name ∧ name ≠ [] ∧
      (∀ c ∈ blanks, isBlankChar c) ∧ Stops (blanks ++ rest) := by
  cases h with
  | @intro lead _ blanks leads plain named blank =>
    refine ⟨lead, blanks, rfl, leads, plain, named, blank, ?_⟩
    by_cases filled : blanks = []
    · subst filled
      have mem : name.getLast named ∈ nameAtStart name := by
        rw [plain]
        exact List.getLast_mem named
      have last := isWordChar_of_mem_nameAtStart mem
      rcases ended with apart | stops
      · simp [List.getLast?_append, List.getLast?_eq_some_getLast named, joins, last] at apart
      · exact stops
    · exact stops_blanks filled blank rest

theorem silent (h : DefFront front name) (ended : front.getLast?.any joins = false ∨ Stops rest)
    (other : name ∈ blockingNames → ¬ OpensParen rest) : Silent rest none .code front := by
  obtain ⟨lead, blanks, rfl, leads, plain, -, blank, stops⟩ := h.parts ended
  have word (c : Char) (mem : c ∈ name) : joins c := by
    rw [joins, isWordChar_of_mem_nameAtStart (plain.symm ▸ mem), Bool.true_or]
  rw [silent_append, silent_append]
  refine ⟨leads.silent _, silent_word word stops fun mem paren => other mem ?_, silent_blanks blank⟩
  rwa [OpensParen, trimLeft_append_of_blank blank] at paren

theorem found (h : DefFront front name) (rest : Text) (ended : front.getLast?.any joins = false ∨ Stops rest) :
    ∃ blanks, afterSpacedWord? "def" ((afterSpacedWord? "async" (front ++ rest)).getD (front ++ rest)) =
      some (name ++ (blanks ++ rest)) ∧ nameAtStart (name ++ (blanks ++ rest)) = name ∧ name ≠ [] ∧
        ∀ c ∈ blanks, isBlankChar c := by
  obtain ⟨lead, blanks, rfl, leads, plain, named, blank, stops⟩ := h.parts ended
  refine ⟨blanks, afterSpacedWord?_def_iff.2 ⟨⟨lead, leads, by simp only [List.append_assoc]⟩, ?_⟩, ?_, named, blank⟩
  · obtain ⟨c, tail, rfl⟩ := List.exists_cons_of_ne_nil named
    have word : isWordChar c := isWordChar_of_mem_nameAtStart (plain.symm ▸ List.mem_cons_self)
    rintro d ⟨⟩
    exact isBlankChar_of_isWordChar word
  · rw [nameAtStart_append _ stops.not_word, plain]

end DefFront

theorem defParts?_iff {inner : Text} :
    defParts? code = some (name, inner) ↔ ∃ rest,
      afterSpacedWord? "def" ((afterSpacedWord? "async" code).getD code) = some rest ∧ nameAtStart rest = name ∧ name ≠ [] ∧
      OpensParen (rest.drop name.length) ∧ endsWithChar code ':' ∧ ∃ close,
      matchingBracket? code (indexOf code (trimLeft (rest.drop name.length))) = some close ∧
      slice code (indexOf code (trimLeft (rest.drop name.length)) + 1) close = inner := by
  simp only [defParts?, bind, Option.bind_none, Option.bind_eq_some_iff, Option.ite_none_left_eq_some, Option.pure_def,
    Option.some.injEq, Bool.or_eq_true, not_or, bne_iff_ne, ne_eq, Decidable.not_not, Bool.not_eq_true',
    Bool.not_eq_false, Prod.mk.injEq, OpensParen]
  constructor
  · rintro ⟨rest, found, named, ⟨paren, last⟩, close, matched, rfl, rfl⟩
    exact ⟨rest, found, rfl, named, paren, last, close, matched, rfl⟩
  · rintro ⟨rest, found, rfl, named, paren, last, close, matched, rfl⟩
    exact ⟨rest, found, named, ⟨paren, last⟩, close, matched, rfl, rfl⟩

theorem defParts?_iff_shape {inner : Text} :
    defParts? code = some (name, inner) ↔ ∃ front close behind, DefFront front name ∧
      code = front ++ '(' :: (inner ++ close :: behind) ∧ Closed inner ∧ isCloser close ∧
      endsWithChar behind ':' := by
  have index (front after : Text) : indexOf (front ++ '(' :: after) ('(' :: after) = front.length := by
    rw [indexOf, List.length_append, Nat.add_sub_cancel]
  have cut (front inner behind : Text) (close : Char) :
      slice (front ++ '(' :: (inner ++ close :: behind)) (front.length + 1) (front.length + 1 + inner.length) = inner := by
    have := slice_append (front ++ ['(']) inner (close :: behind)
    simpa using this
  have last (front inner behind : Text) {close : Char} (closes : isCloser close) :
      endsWithChar (front ++ '(' :: (inner ++ close :: behind)) ':' = endsWithChar behind ':' := by
    have ends : endsWithChar ((front ++ '(' :: inner) ++ close :: behind) ':' = endsWithChar behind ':' :=
      endsWithChar_closer _ closes
    rwa [List.append_assoc, List.cons_append] at ends
  rw [defParts?_iff]
  constructor
  · rintro ⟨rest, found, named, filled, paren, colon, close, matched, rfl⟩
    obtain ⟨⟨lead, leads, rfl⟩, -⟩ := afterSpacedWord?_def_iff.1 found
    obtain ⟨tail, rfl⟩ := named ▸ isPrefix_nameAtStart rest
    rw [List.drop_left] at paren matched ⊢
    obtain ⟨after, trimmed⟩ := List.head?_eq_some_iff.1 paren
    have cut_ : lead ++ (name ++ tail) = (lead ++ (name ++ leadingBlanks tail)) ++ '(' :: after := by
      simp only [List.append_assoc, ← trimmed, leadingBlanks_append_trimLeft]
    have shape : DefFront (lead ++ (name ++ leadingBlanks tail)) name :=
      .intro leads (by rw [← nameAtStart_append _ paren.stops.not_word, named]) filled fun c => isBlankChar_of_mem_leadingBlanks
    rw [cut_, trimmed, index] at matched ⊢
    rw [cut_] at colon
    obtain ⟨-, inner, close, behind, rfl, rfl, closes, closed⟩ :=
      matchingBracket?_spec matched (Exchanged.settled_front shape.chars)
    rw [last _ _ _ closes] at colon
    rw [cut]
    exact ⟨_, close, behind, shape, rfl, closed, closes, colon⟩
  · rintro ⟨front, close, behind, shape, rfl, closed, closes, ends⟩
    obtain ⟨blanks, found, named, filled, blank⟩ :=
      shape.found ('(' :: (inner ++ close :: behind)) (.inr (by rintro c ⟨⟩; decide))
    refine ⟨_, found, named, filled, ?_⟩
    rw [List.drop_left, trimLeft_blanks_append blank (by decide), index]
    refine ⟨opensParen_blanks blank, by rwa [last _ _ _ closes], _,
      closed.matchingBracket? (Exchanged.settled_front shape.chars) rfl closes behind, cut _ _ _ _⟩

theorem firstWord_spaced (plain : nameAtStart word = word) (filled : blanks ≠ []) (blank : ∀ c ∈ blanks, isBlankChar c) :
    firstWord ((word ++ blanks) ++ rest) = word := by
  rw [firstWord, List.append_assoc, nameAtStart_append _ (stops_blanks filled blank rest).not_word, plain]

theorem firstWord_of_defParts? (h : defParts? code = some parts) :
    firstWord code ∈ (["def".toList, "async".toList] : List Text) := by
  obtain ⟨front, close, behind, header, rfl, -⟩ := defParts?_iff_shape.1 h
  cases header with
  | intro leads plain named blank =>
    cases leads with
    | sync filled blank =>
      rw [List.append_assoc, firstWord_spaced (by decide) filled blank]
      decide
    | async filled blank _ _ =>
      rw [List.append_assoc, List.append_assoc, firstWord_spaced (by decide) filled blank]
      decide

end LineProbe.Construct
