import LineProbe.Proofs.HushedSteps

/-!
# Slices that leave nothing open

Codes are cut at places that a search has found: a bracket and the one that closes it, an equals sign, a keyword, a
colon.
-/

namespace LineProbe

open Text

variable {mode : Mode}

/-- Scanning the text leaves neither a bracket nor a string open. -/
def LeavesNothing (text : Text) : Prop :=
  (scan .closed text).delta = 0 ∧ (scan .closed text).carry = .closed

theorem Closed.leavesNothing (closed : Closed text) : LeavesNothing text :=
  ⟨closed.bracketDelta, Mode.carry_of_settled closed.mode_settled⟩

/-! ## Matching brackets -/

theorem Mode.exists_of_mem_places (mem : place ∈ mode.places depth index text) :
    ∃ before c after, text = before ++ c :: after ∧ (mode.run before).readsCode c ∧
      place = ⟨index + before.length, depthOf (mode.depthRun depth before) c, c⟩ := by
  induction text generalizing mode depth index with
  | nil => cases mem
  | cons c rest ih =>
    rw [places_cons, List.mem_append] at mem
    rcases mem with here | later
    · split at here
      · next reads => exact ⟨[], c, rest, rfl, reads, List.mem_singleton.1 here⟩
      · cases here
    · obtain ⟨before, d, after, rfl, reads, rfl⟩ := ih later
      refine ⟨c :: before, d, after, rfl, reads, ?_⟩
      rw [List.length_cons, Nat.add_right_comm, Nat.add_assoc]
      rfl

inductive ClosingSearch (base : Nat) (mode : Mode) (depth index : Nat) : Text → Option Nat → Prop where
  | missing {text : Text} (deep : ∀ place ∈ mode.places depth index text, base < place.depth) :
    ClosingSearch base mode depth index text none
  | found {inner rest : Text} {c : Char} (closes : isCloser c = true) (reads : (mode.run inner).readsCode c = true)
    (level : mode.depthRun depth inner = base + 1) (deep : ∀ place ∈ mode.places depth index inner, base < place.depth) :
    ClosingSearch base mode depth index (inner ++ c :: rest) (some (index + inner.length))

theorem ClosingSearch.cons {rest : Text} {found : Option Nat} (here : mode.readsCode c → base < depthOf depth c)
    (later : ClosingSearch base (mode.next c) (mode.depthNext depth c) (index + 1) rest found) :
    ClosingSearch base mode depth index (c :: rest) found := by
  have first : ∀ place ∈ (if mode.readsCode c then [(⟨index, depthOf depth c, c⟩ : Place)] else []),
      base < place.depth := by
    split
    · next reads => exact List.forall_mem_singleton.2 (here reads)
    · rintro place ⟨⟩
  cases later with
  | missing deep =>
    refine .missing ?_
    rw [Mode.places_cons]
    exact List.forall_mem_append.2 ⟨first, deep⟩
  | @found inner rest d closes reads level deep =>
    have search : ClosingSearch base mode depth index ((c :: inner) ++ d :: rest) (some (index + (c :: inner).length)) := by
      refine .found closes reads level ?_
      rw [Mode.places_cons]
      exact List.forall_mem_append.2 ⟨first, deep⟩
    rwa [List.length_cons, Nat.add_comm inner.length, ← Nat.add_assoc] at search

-- The counter of the search and the depth of the places run side by side, `base` apart.
theorem closingPlace?_search (base count index : Nat) (mode : Mode) (text : Text) :
    ClosingSearch base mode (base + count + 1) index text
      (closingPlace? (count + 1) (mode.places (base + count + 1) index text)) := by
  induction text generalizing mode count index with
  | nil => exact .missing (by rintro place ⟨⟩)
  | cons c rest ih =>
    rw [Mode.places_cons]
    by_cases reads : mode.readsCode c
    · rw [if_pos reads, List.singleton_append, closingPlace?]
      dsimp only
      split
      · next opens =>
        have level : depthOf (base + count + 1) c = base + count + 1 := by simp [depthOf, isCloser_of_isOpener opens]
        have next : mode.depthNext (base + count + 1) c = base + (count + 1) + 1 := by
          rw [Mode.depthNext, if_pos reads, level, depthAfter, if_pos opens]
          omega
        refine .cons (fun _ => by omega) ?_
        rw [next]
        exact_mod_cast ih (count + 1) (index + 1) (mode.next c)
      · next notOpener =>
        split
        · next closes =>
          have level : depthOf (base + count + 1) c = base + count := by simp [depthOf, closes]
          cases count with
          | zero =>
            have here : ClosingSearch base mode (base + 1) index ([] ++ c :: rest) (some (index + [].length)) :=
              .found closes reads rfl (by rintro place ⟨⟩)
            rwa [if_pos (by rfl)]
          | succ count =>
            have next : mode.depthNext (base + (count + 1) + 1) c = base + count + 1 := by
              rw [Mode.depthNext, if_pos reads, level, depthAfter, if_neg notOpener, Nat.add_assoc]
            rw [if_neg (by omega)]
            refine .cons (fun _ => by omega) ?_
            rw [next]
            simpa using ih count (index + 1) (mode.next c)
        · next notCloser =>
          have level : depthOf (base + count + 1) c = base + count + 1 := by simp [depthOf, notCloser]
          have next : mode.depthNext (base + count + 1) c = base + count + 1 := by
            simp [Mode.depthNext, reads, level, depthAfter, notOpener]
          refine .cons (fun _ => by omega) ?_
          rw [next]
          exact ih count (index + 1) (mode.next c)
    · have next : mode.depthNext (base + count + 1) c = base + count + 1 := by simp [Mode.depthNext, reads]
      rw [if_neg reads, List.nil_append, next]
      refine .cons (fun reads' => absurd reads' reads) ?_
      rw [next]
      exact ih count (index + 1) (mode.next c)

/-- A place of a text holds the bracket that closes another one: both are at the same depth, and all places between them
are deeper. -/
structure Closes (text : Text) (opening closing : Place) : Prop where
  mem : closing ∈ places text
  behind : opening.index < closing.index
  closer : isCloser closing.char = true
  level : closing.depth = opening.depth
  inside : ∀ place ∈ places text, opening.index < place.index → place.index < closing.index →
    opening.depth < place.depth
  between : LeavesNothing (slice text (opening.index + 1) closing.index)

theorem mem_places_behind {before after : Text} {place : Place} (reads : (Mode.code.run before).readsCode c) :
    place ∈ places (before ++ c :: after) ∧ before.length < place.index ↔
      place ∈ Mode.code.places ((Mode.code.run before).depthNext (Mode.code.depthRun 0 before) c) (before.length + 1) after := by
  rw [places, Mode.places_append, Mode.places_cons, if_pos reads, Mode.next_of_readsCode reads, Nat.zero_add,
    List.mem_append, List.singleton_append, List.mem_cons]
  constructor
  · rintro ⟨early | rfl | late, later⟩
    · have := (Mode.index_mem_places early).2
      omega
    · exact absurd later (by simp)
    · exact late
  · intro late
    exact ⟨.inr (.inr late), (Mode.index_mem_places late).1⟩

/-- The bracket that closes another one is the first closing bracket behind it at its depth. -/
theorem bracket_closes_first {opening : Place} (mem : opening ∈ places text) (opens : isOpener opening.char = true) :
    (∀ close, matchingBracket? text opening.index = some close → ∃ closing, Closes text opening closing ∧
      closing.index = close) ∧
    (matchingBracket? text opening.index = none ↔ ∀ place ∈ places text, opening.index < place.index →
      isCloser place.char = true → place.depth ≠ opening.depth) := by
  obtain ⟨before, c, after, rfl, reads, rfl⟩ := Mode.exists_of_mem_places mem
  dsimp only at opens ⊢
  rw [Nat.zero_add]
  have settled := Mode.settled_of_readsCode reads (by rintro rfl; cases opens)
  generalize depth : Mode.code.depthRun 0 before = base
  have level : depthOf base c = base := by simp [depthOf, isCloser_of_isOpener opens]
  have enter : (Mode.code.run before).depthNext base c = base + 0 + 1 := by
    rw [Mode.depthNext, if_pos reads, level, depthAfter, if_pos opens]
  have behind (place : Place) := @mem_places_behind c before after place reads
  have search := closingPlace?_search base 0 (before.length + 1) .code after
  have matched := matchingBracket?_eq settled opens after
  rw [depth, enter] at behind matched
  change ClosingSearch _ _ _ _ _ (closingPlace? 1 _) at search
  rw [← matched] at search
  rw [level]
  generalize result : matchingBracket? (before ++ c :: after) before.length = found at search ⊢
  cases search with
  | missing deep =>
    refine ⟨by rintro close ⟨⟩, iff_of_true rfl ?_⟩
    intro place mem later _
    exact Nat.ne_of_gt (deep place ((behind place).1 ⟨mem, later⟩))
  | @found inner rest d closes last inside deep =>
    obtain ⟨-, inner', d', rest', whole, length, -, closed⟩ := matchingBracket?_spec result settled
    obtain ⟨rfl, -⟩ := List.append_inj whole (by omega)
    have notOpener : ¬ isOpener d = true := fun opens => by simp [isCloser_of_isOpener opens] at closes
    have parts := Mode.places_append .code (base + 0 + 1) (before.length + 1) inner (d :: rest)
    rw [inside, Mode.places_cons, if_pos last, depthOf, if_pos closes, Nat.add_sub_cancel] at parts
    obtain ⟨mem, later⟩ := (behind ⟨before.length + 1 + inner.length, base, d⟩).2 (by simp [parts])
    refine ⟨?_, iff_of_false (by simp) fun none => none _ mem later closes rfl⟩
    rintro close ⟨⟩
    refine ⟨_, ⟨mem, later, closes, rfl, ?_, ?_⟩, rfl⟩
    · intro place mem after early
      have place_ := (behind place).1 ⟨mem, after⟩
      rw [parts] at place_
      rcases List.mem_append.1 place_ with inside | late
      · exact deep place inside
      · rcases List.mem_cons.1 late with rfl | late
        · exact absurd early (by simp)
        · have := (Mode.index_mem_places late).1
          dsimp only at early
          omega
    · have cut := Construct.slice_append (before ++ [c]) inner (d :: rest)
      rw [List.append_assoc, List.length_append] at cut
      exact cut.symm ▸ closed.leavesNothing

theorem bracket_closes_first_nested :
    (⟨2, 0, '('⟩ : Place) ∈ places "]f(a[')'], # )\n b)" ∧ isOpener '(' = true ∧
      matchingBracket? "]f(a[')'], # )\n b)" 2 = some 17 ∧
      ∃ closing, Closes "]f(a[')'], # )\n b)" ⟨2, 0, '('⟩ closing ∧ closing.index = 17 := by
  have mem : (⟨2, 0, '('⟩ : Place) ∈ places "]f(a[')'], # )\n b)" := by decide +kernel
  have found : matchingBracket? "]f(a[')'], # )\n b)" 2 = some 17 := by decide +kernel
  exact ⟨mem, rfl, found, (bracket_closes_first mem rfl).1 17 found⟩

/-! ## What is cut out of a code -/

theorem Mode.bracketDelta_quiet (quiet : ∀ c ∈ text, isQuiet c) : mode.bracketDelta text = 0 := by
  induction text generalizing mode with
  | nil => rfl
  | cons c rest ih =>
    rw [List.forall_mem_cons] at quiet
    have weight : bracketWeight c = 0 := by
      have := quiet.1
      simp only [isQuiet, marks, Bool.not_eq_true', List.contains_eq_mem, decide_eq_false_iff_not, List.mem_cons,
        List.not_mem_nil, or_false, not_or] at this
      simp [bracketWeight, isOpener, isCloser, this]
    rw [bracketDelta, weight, ite_self, ih quiet.2, Int.zero_add]

theorem leavesNothing_between (quiet : ∀ c ∈ left, isQuiet c) (quiet' : ∀ c ∈ right, isQuiet c) :
    LeavesNothing (left ++ text ++ right) ↔ LeavesNothing text := by
  have delta : Mode.code.bracketDelta (left ++ text ++ right) = Mode.code.bracketDelta text := by
    rw [Mode.bracketDelta_append, Mode.bracketDelta_append, Mode.bracketDelta_quiet quiet, Mode.bracketDelta_quiet quiet',
      Mode.run_quiet_code quiet, Int.zero_add, Int.add_zero]
  have carry : (Mode.code.run (left ++ text ++ right)).carry = .closed ↔ (Mode.code.run text).carry = .closed := by
    rw [Mode.run_append, Mode.run_append, Mode.run_quiet_code quiet, Mode.carry_run]
    all_goals exact fun mem => absurd (quiet' _ mem) (by decide)
  exact and_congr (by simp only [scan, Carry.mode, delta]) carry

theorem LeavesNothing.trim (h : LeavesNothing text) : LeavesNothing (trim text) := by
  obtain ⟨left, right, whole, blank, blank'⟩ := trim_between_blanks text
  rw [whole] at h
  exact (leavesNothing_between (fun c mem => isQuiet_of_isBlankChar (blank c mem))
    fun c mem => isQuiet_of_isBlankChar (blank' c mem)).1 h

theorem LeavesNothing.trimLeft (h : LeavesNothing text) : LeavesNothing (trimLeft text) := by
  rw [← leadingBlanks_append_trimLeft text, ← List.append_nil (leadingBlanks text ++ _)] at h
  exact (leavesNothing_between (fun c mem => isQuiet_of_isBlankChar (isBlankChar_of_mem_leadingBlanks mem)) (by simp)).1 h

theorem Divides.leavesNothing (h : Divides code front c rest) (closed : Closed code) (quiet : isQuiet c)
    (inLine : c ≠ '\n') : LeavesNothing (front ++ [c]) ∧ LeavesNothing rest := by
  rw [h.whole] at closed
  obtain ⟨-, behind, restart⟩ := closed.cut quiet inLine h.reads h.ground
  have depth := Reader.depth_run .start (front ++ [c])
  have mode := Reader.mode_run .start (front ++ [c])
  rw [restart] at depth mode
  refine ⟨⟨?_, ?_⟩, behind.leavesNothing⟩
  · exact (Int.zero_add _).symm.trans depth.symm
  · exact congrArg Mode.carry mode.symm

/-- A code in which no bracket is closed that was not opened, and which leaves nothing open and no comment unended. -/
structure Balanced (code : Text) : Prop where
  prefixes : ∀ n ≤ code.length, 0 ≤ (scan .closed (code.take n)).delta
  complete : LeavesNothing code
  outside : Mode.code.run code ≠ .comment

theorem Balanced.closed (h : Balanced code) : Closed code := by
  obtain ⟨prefixes, ⟨delta, carry⟩, outside⟩ := h
  refine ⟨(Reader.above_iff_prefixes (Int.le_refl 0)).2 fun n le => ?_, ?_, ?_⟩
  · exact (Int.zero_add _).symm ▸ prefixes n le
  · rw [Reader.depth_run]
    exact (Int.zero_add _).trans delta
  · rw [Reader.mode_run]
    change (Mode.code.run code).carry = .closed at carry
    change (Mode.code.run code).isSettled
    cases reached : Mode.code.run code <;> simp_all [Mode.carry, Mode.isSettled]

namespace Construct

/-- The texts that instrumentation cuts out of the code of a construct. -/
def cuts (code : Text) : Construct → List Text
  | .assignment _ valueStart | .annotated _ valueStart => [code.drop valueStart]
  | .augmented _ _ valueStart => [trim (code.drop valueStart)]
  | .printCall openParen closeParen => [slice code (openParen + 1) closeParen]
  | .forHeader head iterable => [head, iterable]
  | .returning value => [value]
  | .inlineCompound colon => [code.take (colon + 1), trimLeft (code.drop (colon + 1))]
  | _ => []

/-- The parts of a header or of an inline compound give back its code, with white space where it was cut. -/
def Rejoins (code : Text) : Construct → Prop
  | .forHeader head iterable => ∃ front left right, head = front ++ [' '] ∧
      code = front ++ left ++ iterable ++ right ++ [':'] ∧ ∀ c ∈ left ++ right, isBlankChar c = true
  | .inlineCompound colon => ∃ blanks, code = code.take (colon + 1) ++ blanks ++ trimLeft (code.drop (colon + 1)) ∧
      ∀ c ∈ blanks, isBlankChar c = true
  | _ => True

theorem LoopShape.leavesNothing (shape : LoopShape code part body) (closed : Closed code) :
    LeavesNothing (part ++ "in ".toList) ∧ LeavesNothing (trim body) := by
  obtain ⟨front, behind⟩ := shape.divides.1.leavesNothing closed (by decide) (by decide)
  have head : part ++ "in ".toList = [] ++ (part ++ ['i'] ++ ['n']) ++ [' '] := by simp
  have tail : LeavesNothing ([] ++ body ++ [':']) := behind
  rw [leavesNothing_between (by simp) (by decide)] at tail
  rw [head, leavesNothing_between (by simp) (by decide)]
  exact ⟨front, tail.trim⟩

theorem rejoins (h : classify code = .ok kind) : kind.Rejoins code := by
  cases classify_ok h with
  | forHeader found =>
    obtain ⟨part, body, shape, rfl, rfl⟩ := forHeader?_iff_shape.1 found
    obtain ⟨left, right, whole, blank, blank'⟩ := trim_between_blanks body
    refine ⟨part ++ "in".toList, left, right, by simp, ?_, List.forall_mem_append.2 ⟨blank, blank'⟩⟩
    rw [shape.whole]
    conv => lhs; rw [whole]
    simp
  | @inlineCompound colon =>
    refine ⟨leadingBlanks (code.drop (colon + 1)), ?_, fun c => isBlankChar_of_mem_leadingBlanks⟩
    rw [List.append_assoc, leadingBlanks_append_trimLeft, List.take_append_drop]
  | _ => trivial

/-- What is cut out of a balanced code leaves nothing open, and the parts of a header or an inline compound give it back. -/
theorem cuts_leave_nothing (balanced : Balanced code) (h : classify code = .ok kind) :
    (∀ piece ∈ kind.cuts code, LeavesNothing piece) ∧ kind.Rejoins code := by
  refine ⟨?_, rejoins h⟩
  have closed := balanced.closed
  cases kind with
  | assignment target valueStart =>
    obtain ⟨front, value, divides, rfl⟩ := divides_assigned h (.inl rfl)
    exact List.forall_mem_singleton.2 (divides.drop ▸ (divides.leavesNothing closed (by decide) (by decide)).2)
  | annotated target valueStart =>
    obtain ⟨front, value, divides, rfl⟩ := divides_assigned h (.inr rfl)
    exact List.forall_mem_singleton.2 (divides.drop ▸ (divides.leavesNothing closed (by decide) (by decide)).2)
  | augmented target operator valueStart =>
    obtain ⟨front, value, divides, rfl⟩ := divides_augmented h
    exact List.forall_mem_singleton.2 (divides.drop ▸ (divides.leavesNothing closed (by decide) (by decide)).2.trim)
  | printCall openParen closeParen =>
    cases classify_ok h with
    | printCall found =>
      obtain ⟨before, inner, close, behind, rfl, rfl, rfl, -, inside, -⟩ := print?_shape found
      obtain ⟨-, arguments, -⟩ := Instrument.call_cuts before inner behind close
      exact List.forall_mem_singleton.2 (arguments.symm ▸ inside.leavesNothing)
  | forHeader head iterable =>
    obtain ⟨part, body, shape, rfl, rfl⟩ := forHeader?_iff_shape.1 (forHeader?_of_classify h)
    obtain ⟨front, behind⟩ := shape.leavesNothing closed
    exact List.forall_mem_cons.2 ⟨front, List.forall_mem_singleton.2 behind⟩
  | returning value =>
    cases classify_ok h with
    | returning word =>
      obtain ⟨-, behind⟩ := (divides_returning word).1.leavesNothing closed (by decide) (by decide)
      exact List.forall_mem_singleton.2 behind.trim
  | inlineCompound colon =>
    cases classify_ok h with
    | inlineCompound _ _ found =>
      obtain ⟨head, body, shape, rfl⟩ := inlineCompound?_iff_shape.1 found
      obtain ⟨front, behind⟩ := shape.divides.leavesNothing closed (by decide) (by decide)
      rw [cuts, shape.take, shape.drop]
      exact List.forall_mem_cons.2 ⟨front, List.forall_mem_singleton.2 behind.trimLeft⟩
  | _ => exact List.forall_mem_nil _

theorem cuts_leave_nothing_loop :
    Balanced "for (a, # in\n  b) in f(\"in\", [1]) :" ∧
      classify "for (a, # in\n  b) in f(\"in\", [1]) :" = .ok (.forHeader "for (a, # in\n  b) in " "f(\"in\", [1])") ∧
      (∀ piece ∈ ["for (a, # in\n  b) in ".toList, "f(\"in\", [1])".toList], LeavesNothing piece) ∧
      Rejoins "for (a, # in\n  b) in f(\"in\", [1]) :" (.forHeader "for (a, # in\n  b) in " "f(\"in\", [1])") := by
  have balanced : Balanced "for (a, # in\n  b) in f(\"in\", [1]) :" :=
    ⟨by decide +kernel, ⟨by decide +kernel, by decide +kernel⟩, by decide +kernel⟩
  have construct : classify "for (a, # in\n  b) in f(\"in\", [1]) :" =
      .ok (.forHeader "for (a, # in\n  b) in " "f(\"in\", [1])") := by decide +kernel
  exact ⟨balanced, construct, cuts_leave_nothing balanced construct⟩

end Construct

end LineProbe
