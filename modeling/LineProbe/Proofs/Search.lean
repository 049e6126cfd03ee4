import LineProbe.Proofs.Reader
import LineProbe.Scan.Place

/-!
# Searching for code characters

The searches of `Scan/Place` go through a list of places with their indices.
-/

namespace LineProbe

open Text

/-! ## Depths -/

namespace Mode

def depthNext (mode : Mode) (depth : Nat) (c : Char) : Nat :=
  if mode.readsCode c then depthAfter (depthOf depth c) c else depth

def depthRun : Mode → Nat → Text → Nat
  | _, depth, [] => depth
  | mode, depth, c :: rest => (mode.next c).depthRun (mode.depthNext depth c) rest

end Mode

variable {reader : Reader} {depth index : Nat}

namespace Reader

theorem depth_next_of_above (above : 0 ≤ (reader.next c).depth) (same : reader.depth = depth) :
    (reader.next c).depth = (reader.mode.depthNext depth c : Nat) := by
  simp only [next, Mode.depthNext, same] at above ⊢
  by_cases reads : reader.mode.readsCode c
  · simp only [reads, if_true, bracketWeight, depthAfter, depthOf] at above ⊢
    by_cases opens : isOpener c
    · simp [opens, isCloser_of_isOpener opens]
    · by_cases closes : isCloser c
      · simp only [opens, closes, if_true] at above ⊢
        simp only [Bool.false_eq_true, if_false] at above ⊢
        omega
      · simp [opens, closes]
  · simp [reads]

theorem depth_run_of_above (above : reader.Above text) (same : reader.depth = depth) :
    (reader.run text).depth = (reader.mode.depthRun depth text : Nat) := by
  induction text generalizing reader depth with
  | nil => exact same
  | cons c rest ih => exact ih above.2 (depth_next_of_above above.1 same)

end Reader

theorem Mode.depthRun_quiet {mode : Mode} (settled : mode.isSettled) (quiet : ∀ c ∈ text, isQuiet c) (depth : Nat) :
    (mode.run text).isSettled ∧ mode.depthRun depth text = depth := by
  by_cases empty : text = []
  · subst empty
    exact ⟨settled, rfl⟩
  · have reached := Reader.run_quiet (show (⟨mode, (depth : Int), false⟩ : Reader).mode.isSettled from settled)
      quiet empty
    have above : (⟨mode, (depth : Int), false⟩ : Reader).Above text := Reader.above_quiet settled (by simp) quiet
    have level := Reader.depth_run_of_above above rfl
    have mode_ := Reader.mode_run ⟨mode, depth, false⟩ text
    rw [reached] at level mode_
    exact ⟨by rw [← mode_]; rfl, by simpa using (Int.ofNat_inj.1 level).symm⟩

/-! ## Places -/

namespace Mode

theorem places_cons (mode : Mode) (depth index : Nat) (c : Char) (rest : Text) :
    mode.places depth index (c :: rest) =
      (if mode.readsCode c then [⟨index, depthOf depth c, c⟩] else []) ++
        (mode.next c).places (mode.depthNext depth c) (index + 1) rest := by
  rw [places, depthNext]
  split <;> rfl

theorem places_append (mode : Mode) (depth index : Nat) (first last : Text) :
    mode.places depth index (first ++ last) = mode.places depth index first ++
      (mode.run first).places (mode.depthRun depth first) (index + first.length) last := by
  induction first generalizing mode depth index with
  | nil => rfl
  | cons c rest ih =>
    rw [List.cons_append, places_cons, places_cons, ih, List.append_assoc, run_cons, depthRun, List.length_cons,
      show index + 1 + rest.length = index + (rest.length + 1) by omega]

theorem index_mem_places {mode : Mode} (h : place ∈ mode.places depth index text) :
    index ≤ place.index ∧ place.index < index + text.length := by
  induction text generalizing mode depth index with
  | nil => cases h
  | cons c rest ih =>
    rw [places_cons, List.mem_append] at h
    rw [List.length_cons]
    rcases h with here | later
    · have : place.index = index := by
        split at here
        · rw [List.mem_singleton] at here
          rw [here]
        · cases here
      omega
    · have := ih later
      omega

end Mode

theorem contains_index_places (before : Text) (c : Char) (rest : Text) :
    ((places (before ++ c :: rest)).map Place.index).contains before.length = (Mode.code.run before).readsCode c := by
  rw [Bool.eq_iff_iff, List.contains_iff_mem, List.mem_map, places, Mode.places_append, Mode.places_cons]
  constructor
  · rintro ⟨place, mem, same⟩
    rcases List.mem_append.1 mem with early | here
    · have := Mode.index_mem_places early
      omega
    · rcases List.mem_append.1 here with here | late
      · by_contra unread
        simp [unread] at here
      · have := Mode.index_mem_places late
        omega
  · intro reads
    rw [if_pos reads, Nat.zero_add]
    exact ⟨_, List.mem_append_right _ List.mem_cons_self, rfl⟩

/-! ## The first place of its kind -/

def firstTop (test : Option Char → Text → Bool) : (previous : Option Char) → Mode → (depth : Nat) → Text → Option Nat
  | _, _, _, [] => none
  | previous, mode, depth, c :: rest =>
    if mode.readsCode c && depthOf depth c == 0 && test previous (c :: rest) then some 0
    else (firstTop test (some c) (mode.next c) (mode.depthNext depth c) rest).map (· + 1)

theorem getLast?_cons_or (c : Char) (part : Text) (previous : Option Char) :
    (c :: part).getLast?.or previous = part.getLast?.or (some c) := by
  rw [List.getLast?_cons]
  cases part.getLast? <;> rfl

theorem firstTop_eq_some (h : firstTop test previous mode depth text = some index) :
    ∃ part c rest, text = part ++ c :: rest ∧ part.length = index ∧ (mode.run part).readsCode c ∧
      depthOf (mode.depthRun depth part) c = 0 ∧ test (part.getLast?.or previous) (c :: rest) := by
  induction text generalizing previous mode depth index with
  | nil => cases h
  | cons c rest ih =>
    rw [firstTop] at h
    split at h
    · next hit =>
      cases h
      simp only [Bool.and_eq_true, beq_iff_eq] at hit
      exact ⟨[], c, rest, rfl, rfl, hit.1.1, hit.1.2, hit.2⟩
    · obtain ⟨offset, found, rfl⟩ := Option.map_eq_some_iff.1 h
      obtain ⟨part, d, behind, whole, length, reads, ground, passes⟩ := ih found
      exact ⟨c :: part, d, behind, by rw [whole]; rfl, by rw [← length]; rfl, reads, ground,
        by rwa [getLast?_cons_or]⟩

def Free (test : Option Char → Text → Bool) (previous : Option Char) (mode : Mode) (depth : Nat) (text : Text) : Prop :=
  ∀ part c rest behind, text = part ++ c :: rest → (mode.run part).readsCode c = true →
    depthOf (mode.depthRun depth part) c = 0 → test (part.getLast?.or previous) (c :: (rest ++ behind)) = false

theorem getLast?_append_or (first last : Text) (previous : Option Char) :
    (first ++ last).getLast?.or previous = last.getLast?.or (first.getLast?.or previous) := by
  rw [List.getLast?_append, Option.or_assoc]

theorem Mode.depthRun_append (mode : Mode) (depth : Nat) (first last : Text) :
    mode.depthRun depth (first ++ last) = (mode.run first).depthRun (mode.depthRun depth first) last := by
  induction first generalizing mode depth with
  | nil => rfl
  | cons c rest ih => exact ih _ _

theorem Free.append (h : Free test previous mode depth first)
    (h' : Free test (first.getLast?.or previous) (mode.run first) (mode.depthRun depth first) last) :
    Free test previous mode depth (first ++ last) := by
  intro part c rest behind whole reads ground
  rcases List.append_eq_append_iff.1 whole with ⟨inside, rfl, tail⟩ | ⟨inside, rfl, tail⟩
  · rw [getLast?_append_or]
    rw [Mode.run_append] at reads
    rw [Mode.depthRun_append] at ground
    exact h' inside c rest behind tail reads ground
  · cases inside with
    | nil =>
      rw [List.append_nil] at h'
      exact h' [] c rest behind tail.symm reads ground
    | cons d inside =>
      rw [List.cons_append, List.cons.injEq] at tail
      obtain ⟨rfl, rfl⟩ := tail
      rw [List.append_assoc]
      exact h part c inside (last ++ behind) rfl reads ground

theorem Free.firstTop (free : Free test previous mode depth first) (last : Text) :
    firstTop test previous mode depth (first ++ last) =
      (firstTop test (first.getLast?.or previous) (mode.run first) (mode.depthRun depth first) last).map
        (· + first.length) := by
  induction first generalizing previous mode depth with
  | nil => simp [Mode.depthRun]
  | cons c rest ih =>
    have here : (mode.readsCode c && depthOf depth c == 0 && test previous (c :: (rest ++ last))) = false := by
      by_contra hit
      simp only [Bool.not_eq_false, Bool.and_eq_true, beq_iff_eq] at hit
      have := free [] c rest last rfl hit.1.1 hit.1.2
      simp [hit.2] at this
    rw [List.cons_append, LineProbe.firstTop, here, if_neg (by simp), ih, Option.map_map, getLast?_cons_or]
    · rfl
    · intro part d between behind whole reads ground
      rw [← getLast?_cons_or c part previous]
      exact free (c :: part) d between behind (by rw [whole]; rfl) reads ground

theorem Closed.free (closed : Closed text) (test : Option Char → Text → Bool) (previous : Option Char) (depth : Nat) :
    Free test previous .code (depth + 1) text := by
  intro part c rest behind whole reads ground
  exfalso
  have above := closed.above
  rw [whole, Reader.above_append] at above
  have deep : (⟨.code, depth + 1, false⟩ : Reader).Above part := above.1.deeper (by omega)
  have level := Reader.depth_run_of_above deep (show _ = ((depth + 1 : Nat) : Int) from rfl)
  have before := above.1.depth_run_nonneg (Int.le_refl _)
  have after : 0 ≤ (Reader.start.run part).depth + _ := above.2.1
  rw [Reader.mode_run, show Reader.start.mode = Mode.code from rfl, if_pos reads] at after
  rw [Reader.depth_run] at level before after
  simp only [Reader.start] at level before after
  rw [depthOf] at ground
  split at ground
  · next closes =>
    have notOpener : isOpener c = false := by
      by_contra opens
      rw [isCloser_of_isOpener (by simpa using opens)] at closes
      cases closes
    simp only [bracketWeight, notOpener, closes, Bool.false_eq_true, if_false, if_true] at after
    omega
  · omega

theorem Closed.free_brackets {inner : Text} (closed : Closed inner) (settled : mode.isSettled)
    (opens : ∀ previous rest, test previous ('(' :: rest) = false)
    (closes : ∀ previous rest, test previous (close :: rest) = false) (previous : Option Char) (depth : Nat) :
    Free test previous mode depth ('(' :: (inner ++ [close])) := by
  have single {c : Char} (h : ∀ previous rest, test previous (c :: rest) = false) {previous : Option Char} {mode : Mode}
      {depth : Nat} : Free test previous mode depth [c] := by
    intro part d rest behind whole _ _
    obtain rfl : d = c := List.mem_singleton.1 (whole ▸ List.mem_append_right _ List.mem_cons_self)
    exact h _ _
  have reads : mode.readsCode '(' := Mode.readsCode_of_settled settled (by decide)
  have enter : mode.depthRun depth ['('] = depth + 1 := by
    rw [Mode.depthRun, Mode.depthNext, if_pos reads]
    rfl
  have inside : Free test (some '(') (mode.run ['(']) (mode.depthRun depth ['(']) inner := by
    rw [enter, Mode.run_cons, Mode.next_of_readsCode reads]
    exact closed.free _ _ _
  exact (single opens).append (inside.append (single closes))

theorem find?_places (before text : Text) (mode : Mode) (depth : Nat)
    (same : ∀ part c rest level, text = part ++ c :: rest →
      look ⟨before.length + part.length, level, c⟩ = (level == 0 && test (before ++ part).getLast? (c :: rest))) :
    ((mode.places depth before.length text).find? look).map Place.index =
      (firstTop test before.getLast? mode depth text).map (before.length + ·) := by
  induction text generalizing before mode depth with
  | nil => rfl
  | cons c rest ih =>
    have later := ih (before ++ [c]) (mode.next c) (mode.depthNext depth c) (by
      intro part d behind level whole
      have := same (c :: part) d behind level (by rw [whole]; rfl)
      simpa [Nat.add_comm, Nat.add_left_comm] using this)
    rw [List.getLast?_concat, List.length_append, List.length_singleton] at later
    rw [firstTop, Mode.places_cons, List.find?_append]
    by_cases reads : mode.readsCode c
    · have here := same [] c rest (depthOf depth c) rfl
      simp only [List.length_nil, Nat.add_zero, List.append_nil] at here
      simp only [reads, if_true, List.find?_singleton, here, Bool.true_and]
      split
      · simp
      · simp only [Option.none_or, later, Option.map_map]
        congr 1
        funext offset
        simp only [Function.comp]
        omega
    · simp only [reads, Bool.false_eq_true, if_false, Bool.false_and, List.find?_nil, Option.none_or, later,
        Option.map_map]
      congr 1
      funext offset
      simp only [Function.comp]
      omega

theorem find?_places_code
    (same : ∀ part c rest level, text = part ++ c :: rest →
      look ⟨part.length, level, c⟩ = (level == 0 && test part.getLast? (c :: rest))) :
    ((places text).find? look).map Place.index = firstTop test none .code 0 text := by
  have found := find?_places [] text .code 0 (by simpa using same)
  rw [places]
  simpa using found

def charTest (c : Char) (_ : Option Char) (text : Text) : Bool :=
  text.head? == some c

def colonTest (_ : Option Char) (text : Text) : Bool :=
  text.head? == some ':' && text[1]? != some '='

def wordTest (word : Text) (previous : Option Char) (text : Text) : Bool :=
  startsWith text word && !previous.any isWordChar && !wordCharAt text word.length

theorem findChar?_eq (free : c ∉ text.take start) :
    findChar? text c start = firstTop (charTest c) none .code 0 text := by
  refine find?_places_code fun part d rest level whole => ?_
  have late (h : d = c) : start ≤ part.length := by
    by_contra early
    apply free
    rw [whole, ← h, List.take_append, List.take_of_length_le (by omega),
      show start - part.length = (start - part.length - 1) + 1 by omega, List.take_succ_cons]
    simp
  by_cases h : d = c
  · simp [charTest, h, late h]
  · have other : (d == c) = false := by simpa using h
    simp [charTest, other]

theorem findColon?_eq (text : Text) : findColon? text = firstTop colonTest none .code 0 text := by
  refine find?_places_code fun part d rest level whole => ?_
  have behind : (part ++ d :: rest)[part.length + 1]? = (d :: rest)[1]? := by
    rw [List.getElem?_append_right (by omega), Nat.add_sub_cancel_left]
  rw [whole, behind]
  simp only [colonTest, List.head?_cons, Bool.and_assoc, Option.some_beq_some]

theorem wholeWordAt_append (part : Text) (c : Char) (rest word : Text) :
    wholeWordAt (part ++ c :: rest) word part.length = wordTest word part.getLast? (c :: rest) := by
  have before : (decide (0 < part.length) && wordCharAt (part ++ c :: rest) (part.length - 1)) =
      part.getLast?.any isWordChar := by
    cases part with
    | nil => rfl
    | cons d part =>
      rw [wordCharAt, List.getElem?_append_left (by simp), List.getLast?_eq_getElem?]
      simp
  have behind : wordCharAt (part ++ c :: rest) (part.length + word.length) = wordCharAt (c :: rest) word.length := by
    rw [wordCharAt, List.getElem?_append_right (by omega), Nat.add_sub_cancel_left]
    rfl
  rw [wholeWordAt, before, behind, List.drop_left]
  rfl

theorem findKeyword?_eq (free : ∀ index < start, wholeWordAt text word index = false) :
    findKeyword? text word start = firstTop (wordTest word) none .code 0 text := by
  refine find?_places_code fun part d rest level whole => ?_
  dsimp only
  rw [whole, wholeWordAt_append]
  by_cases early : part.length < start
  · have unfound := free part.length early
    rw [whole, wholeWordAt_append] at unfound
    simp [unfound]
  · simp [Nat.not_lt.1 early]

/-! ## Cutting a closed text -/

theorem Reader.start_of_quiet (settled : reader.mode.isSettled) (ground : reader.depth = 0) (quiet : isQuiet c) :
    reader.next c = Reader.start := by
  rw [Reader.next_of_quiet settled quiet, ground]
  rfl

theorem Closed.cut (h : Closed (part ++ c :: rest)) (quiet : isQuiet c) (inLine : c ≠ '\n')
    (reads : (Mode.code.run part).readsCode c) (ground : depthOf (Mode.code.depthRun 0 part) c = 0) :
    Closed part ∧ Closed rest ∧ Reader.start.run (part ++ [c]) = Reader.start := by
  have above := Reader.above_append.1 h.above
  have settled : (Reader.start.run part).mode.isSettled := by
    rw [Reader.mode_run]
    exact Mode.settled_of_readsCode reads inLine
  have depth : (Reader.start.run part).depth = 0 := by
    have notCloser : isCloser c = false := by
      by_contra closes
      revert quiet
      simp only [isCloser, Bool.not_eq_false, Bool.or_eq_true, beq_iff_eq] at closes
      rcases closes with (rfl | rfl) | rfl <;> decide
    have level := Reader.depth_run_of_above above.1 (show Reader.start.depth = ((0 : Nat) : Int) from rfl)
    rw [depthOf, notCloser, if_neg (by simp)] at ground
    rw [level]
    exact congrArg Int.ofNat ground
  have restart := Reader.start_of_quiet settled depth quiet
  have whole : Reader.start.run (part ++ c :: rest) = Reader.start.run rest := by
    rw [Reader.run_append, Reader.run_cons, restart]
  refine ⟨⟨above.1, depth, settled⟩, ⟨restart ▸ above.2.2, whole ▸ h.depth, whole ▸ h.settled⟩, ?_⟩
  rw [Reader.run_append, Reader.run_cons, restart]
  rfl

theorem Settles.cut (h : Settles (part ++ c :: rest)) (quiet : isQuiet c) (inLine : c ≠ '\n')
    (reads : (Mode.code.run part).readsCode c) (ground : depthOf (Mode.code.depthRun 0 part) c = 0) :
    Settles part ∧ Settles rest := by
  obtain ⟨left, right, restart⟩ := h.toClosed.cut quiet inLine reads ground
  have held := h.held
  rw [← List.singleton_append, ← List.append_assoc, Reader.held_append, restart, Reader.held_append] at held
  exact ⟨⟨left, held.1.1⟩, ⟨right, held.2⟩⟩

/-! ## Matching brackets -/

theorem closingPlace?_spec (slash : Bool) (inside : 0 < count)
    (h : closingPlace? count (mode.places depth index text) = some close) :
    ∃ inner c rest, text = inner ++ c :: rest ∧ close = index + inner.length ∧ isCloser c ∧
      (mode.run inner).readsCode c ∧ (⟨mode, count - 1, slash⟩ : Reader).Above inner ∧
      ((⟨mode, count - 1, slash⟩ : Reader).run inner).depth = 0 := by
  induction text generalizing mode depth index count slash with
  | nil => cases h
  | cons c rest ih =>
    have extend {level : Int} (step : (⟨mode, count - 1, slash⟩ : Reader).next c = ⟨mode.next c, level - 1, c == '\\'⟩)
        (deeper : 0 < level)
        (found : closingPlace? level ((mode.next c).places (mode.depthNext depth c) (index + 1) rest) = some close) :
        ∃ inner d behind, c :: rest = inner ++ d :: behind ∧ close = index + inner.length ∧ isCloser d ∧
          (mode.run inner).readsCode d ∧ (⟨mode, count - 1, slash⟩ : Reader).Above inner ∧
          ((⟨mode, count - 1, slash⟩ : Reader).run inner).depth = 0 := by
      obtain ⟨inner, d, behind, whole, place, closes, reads, above, ground⟩ := ih (c == '\\') deeper found
      refine ⟨c :: inner, d, behind, by rw [whole]; rfl, by rw [place, List.length_cons]; omega, closes, reads, ?_, ?_⟩
      · rw [Reader.Above, step]
        exact ⟨by show 0 ≤ level - 1; omega, above⟩
      · rw [Reader.run_cons, step]
        exact ground
    rw [Mode.places_cons] at h
    by_cases reads : mode.readsCode c
    · simp only [reads, if_true, List.singleton_append, closingPlace?] at h
      split at h
      · next opens =>
        refine extend ?_ (by omega) h
        simp only [Reader.next, reads, if_true, bracketWeight, opens, Reader.mk.injEq, true_and, and_true]
        omega
      · next notOpener =>
        split at h
        · next closes =>
          split at h
          · next last =>
            cases h
            exact ⟨[], c, rest, rfl, rfl, closes, reads, trivial, by rw [last]; rfl⟩
          · next more =>
            refine extend ?_ (by omega) h
            simp only [Reader.next, reads, if_true, bracketWeight, notOpener, closes, Reader.mk.injEq, true_and, and_true]
            simp
            omega
        · next notCloser =>
          refine extend ?_ inside h
          simp [Reader.next, reads, bracketWeight, notOpener, notCloser]
    · simp only [reads, Bool.false_eq_true, if_false, List.nil_append] at h
      refine extend ?_ inside h
      simp [Reader.next, reads]

theorem closingPlace?_above (above : (⟨mode, count - 1, slash⟩ : Reader).Above text) (more : List Place) :
    closingPlace? count (mode.places depth index text ++ more) = closingPlace? (count + mode.bracketDelta text) more := by
  induction text generalizing mode depth index count slash with
  | nil => simp [Mode.places, Mode.bracketDelta]
  | cons c rest ih =>
    obtain ⟨ground, later⟩ := above
    rw [Mode.places_cons, Mode.bracketDelta, List.append_assoc, ← Int.add_assoc]
    simp only [Reader.next] at ground later
    rw [show count - 1 + (if mode.readsCode c then bracketWeight c else 0) =
      count + (if mode.readsCode c then bracketWeight c else 0) - 1 by omega] at ground later
    rw [← ih later]
    by_cases reads : mode.readsCode c
    · simp only [reads, if_true, List.singleton_append, closingPlace?, bracketWeight] at ground ⊢
      split
      · rfl
      · next notOpener =>
        split
        · next closes =>
          simp only [notOpener, closes, if_true] at ground
          rw [if_neg (by rintro rfl; exact absurd ground (by decide))]
          rfl
        · simp
    · simp [reads]

theorem matchingBracket?_eq (settled : (Mode.code.run before).isSettled) (opens : isOpener c) (after : Text) :
    matchingBracket? (before ++ c :: after) before.length =
      closingPlace? 1 (Mode.code.places ((Mode.code.run before).depthNext (Mode.code.depthRun 0 before) c)
        (before.length + 1) after) := by
  have here : (before ++ c :: after)[before.length]? = some c := by simp
  have early : ((Mode.code.places 0 0 before).filter fun place => before.length ≤ place.index) = [] := by
    rw [List.filter_eq_nil_iff]
    intro place mem
    have := (Mode.index_mem_places mem).2
    simp only [decide_eq_true_eq]
    omega
  have late : (((Mode.code.run before).places (Mode.code.depthRun 0 before) (0 + before.length) (c :: after)).filter
      fun place => before.length ≤ place.index) =
      (Mode.code.run before).places (Mode.code.depthRun 0 before) (0 + before.length) (c :: after) := by
    rw [List.filter_eq_self]
    intro place mem
    have := (Mode.index_mem_places mem).1
    simp only [decide_eq_true_eq]
    omega
  have reads : (Mode.code.run before).readsCode c := by
    apply Mode.readsCode_of_settled settled
    refine ⟨?_, ?_, ?_⟩ <;>
    · rintro rfl
      cases opens
  rw [matchingBracket?, here, Option.any_some, if_pos opens, places, Mode.places_append, List.filter_append, early, late,
    List.nil_append, Mode.places_cons, if_pos reads, List.singleton_append, closingPlace?, if_pos opens,
    Mode.next_of_readsCode reads, Nat.zero_add]
  rfl

theorem matchingBracket?_spec (h : matchingBracket? (before ++ c :: after) before.length = some close)
    (settled : (Mode.code.run before).isSettled) :
    isOpener c ∧ ∃ inner d rest, after = inner ++ d :: rest ∧ close = before.length + 1 + inner.length ∧
      isCloser d ∧ Closed inner := by
  have opens : isOpener c := by
    by_contra other
    simp [matchingBracket?, other] at h
  rw [matchingBracket?_eq settled opens] at h
  obtain ⟨inner, d, rest, whole, place, closes, last, above, ground⟩ := closingPlace?_spec false (by omega) h
  have inLine : d ≠ '\n' := by
    rintro rfl
    cases closes
  refine ⟨opens, inner, d, rest, whole, by omega, closes, above, ground, ?_⟩
  rw [Reader.mode_run]
  exact Mode.settled_of_readsCode last inLine

theorem Closed.bracketDelta (closed : Closed text) : Mode.code.bracketDelta text = 0 := by
  have depth := closed.depth
  rw [Reader.depth_run] at depth
  simpa [Reader.start] using depth

theorem Closed.mode_settled (closed : Closed text) : (Mode.code.run text).isSettled := by
  have settled := closed.settled
  rwa [Reader.mode_run] at settled

theorem Closed.depthRun (closed : Closed text) : Mode.code.depthRun 0 text = 0 := by
  have level := Reader.depth_run_of_above closed.above (show Reader.start.depth = ((0 : Nat) : Int) from rfl)
  rw [closed.depth] at level
  exact (Int.ofNat_inj.1 level).symm

theorem Closed.matchingBracket? {inner : Text} (closed : Closed inner) (settled : (Mode.code.run before).isSettled)
    (opens : isOpener c) (closes : isCloser d) (rest : Text) :
    matchingBracket? (before ++ c :: (inner ++ d :: rest)) before.length = some (before.length + 1 + inner.length) := by
  have notOpener : isOpener d = false := by
    cases both : isOpener d with
    | false => rfl
    | true => simp [isCloser_of_isOpener both] at closes
  have reads : (Mode.code.run inner).readsCode d := by
    apply Mode.readsCode_of_settled closed.mode_settled
    refine ⟨?_, ?_, ?_⟩ <;>
    · rintro rfl
      cases closes
  have above : (⟨.code, 1 - 1, false⟩ : Reader).Above inner := closed.above
  rw [matchingBracket?_eq settled opens, Mode.places_append, closingPlace?_above above, closed.bracketDelta,
    Mode.places_cons, if_pos reads, List.singleton_append]
  simp [closingPlace?, notOpener, closes]

theorem Closed.unique {inner : Text} (closed : Closed inner) (closed' : Closed inner') (closes : isCloser c)
    (closes' : isCloser c')
    (same : inner ++ c :: rest = inner' ++ c' :: rest') : inner = inner' ∧ c = c' ∧ rest = rest' := by
  have settled : (Mode.code.run []).isSettled := rfl
  have place := closed.matchingBracket? settled (show isOpener '(' from rfl) closes rest
  have place' := closed'.matchingBracket? settled (show isOpener '(' from rfl) closes' rest'
  rw [same, place', Option.some.injEq] at place
  obtain ⟨inner_, behind⟩ := List.append_inj same (by omega)
  exact ⟨inner_, List.cons.inj behind⟩

end LineProbe
