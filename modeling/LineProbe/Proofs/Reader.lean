import LineProbe.Proofs.Text
import LineProbe.Scan.Line

/-!
# Reading code across lines

A reader has a mode, a bracket depth and the knowledge whether the last character was a backslash: what decides, at a
newline, whether a statement goes on.
-/

namespace LineProbe

/-! ## Modes -/

def Mode.isSettled : Mode → Bool
  | .code | .quoteTwo _ => true
  | _ => false

def marks : Text :=
  ['#', '\'', '"', '\\', '(', ')', '[', ']', '\x7b', '\x7d']

def isQuiet (c : Char) : Bool :=
  !marks.contains c

variable {mode : Mode} {depth : Int} {slash : Bool}

theorem isCloser_of_isOpener (h : isOpener c) : isCloser c = false := by
  simp only [isOpener, Bool.or_eq_true, beq_iff_eq] at h
  rcases h with (rfl | rfl) | rfl <;> rfl

theorem isQuiet_of {kind : Char → Bool} (free : ∀ mark ∈ marks, kind mark = false) (h : kind c) : isQuiet c := by
  simp only [isQuiet, Bool.not_eq_true', List.contains_eq_mem, decide_eq_false_iff_not]
  intro mem
  rw [free c mem] at h
  cases h

theorem isQuiet_of_isBlankChar (h : Text.isBlankChar c) : isQuiet c :=
  isQuiet_of (by decide) h

namespace Mode

theorem next_newline (mode : Mode) : mode.next '\n' = mode.carry.mode := by
  cases mode with
  | code | comment => rfl
  | _ quote => cases quote <;> rfl

theorem readsCode_of_settled (settled : mode.isSettled) (h : c ≠ '#' ∧ c ≠ '\'' ∧ c ≠ '"') : mode.readsCode c := by
  cases mode <;> simp_all [isSettled, readsCode]

theorem next_of_readsCode (h : mode.readsCode c) : mode.next c = .code := by
  cases mode with
  | code => simp_all [readsCode, next, afterCode]
  | comment => simp_all [readsCode, next]
  | quoteTwo quote =>
    simp only [readsCode, Bool.and_eq_true, decide_eq_true_eq] at h
    obtain ⟨⟨notComment, notSingle⟩, notDouble⟩ := h
    cases quote <;> simp [next, Quote.char, afterCode, notComment, notSingle, notDouble]
  | _ => cases h

theorem settled_of_readsCode (h : mode.readsCode c) (other : c ≠ '\n') : mode.isSettled := by
  cases mode <;> simp_all [readsCode, isSettled]

theorem settled_of_startsComment (h : mode.startsComment c) : mode.isSettled := by
  cases mode <;> simp_all [startsComment, isSettled]

theorem carry_of_settled (h : mode.isSettled) : mode.carry = .closed := by
  cases mode <;> simp_all [isSettled, carry]

theorem settled_of_next (h : (mode.next c).isSettled) (notNewline : c ≠ '\n') (notSingle : c ≠ '\'')
    (notDouble : c ≠ '"') : mode.isSettled := by
  cases mode with
  | code | quoteTwo => rfl
  | comment => simp [next, notNewline, isSettled] at h
  | _ quote =>
    cases quote <;> by_cases slash : c = '\\' <;>
      simp [next, afterShort, Quote.char, notSingle, notDouble, slash, isSettled] at h

end Mode

/-! ## Readers -/

structure Reader where
  mode : Mode
  depth : Int
  slash : Bool
deriving DecidableEq, Repr

namespace Reader

def start : Reader :=
  ⟨.code, 0, false⟩

def next (reader : Reader) (c : Char) : Reader :=
  ⟨reader.mode.next c, reader.depth + (if reader.mode.readsCode c then bracketWeight c else 0), c == '\\'⟩

def run (reader : Reader) (text : Text) : Reader :=
  text.foldl next reader

@[simp] theorem run_nil (reader : Reader) : reader.run [] = reader := rfl

@[simp] theorem run_cons (reader : Reader) (c : Char) (text : Text) :
    reader.run (c :: text) = (reader.next c).run text := rfl

@[simp] theorem run_append (reader : Reader) (first last : Text) :
    reader.run (first ++ last) = (reader.run first).run last :=
  List.foldl_append

theorem mode_run (reader : Reader) (text : Text) : (reader.run text).mode = reader.mode.run text := by
  induction text generalizing reader with
  | nil => rfl
  | cons c rest ih => exact ih _

theorem depth_run (reader : Reader) (text : Text) :
    (reader.run text).depth = reader.depth + reader.mode.bracketDelta text := by
  induction text generalizing reader with
  | nil => simp [Mode.bracketDelta]
  | cons c rest ih =>
    rw [run_cons, ih, Mode.bracketDelta]
    simp only [next]
    omega

theorem slash_run_of_ne_nil (reader : Reader) (h : text ≠ []) :
    (reader.run text).slash = Text.endsWithChar text '\\' := by
  induction text generalizing reader with
  | nil => exact absurd rfl h
  | cons c rest ih =>
    cases rest with
    | nil => simp [next, Text.endsWithChar]
    | cons d rest =>
      rw [run_cons, ih _ (by simp)]
      simp [Text.endsWithChar]

def keepsOpen (reader : Reader) : Bool :=
  reader.mode.carry ≠ .closed || 0 < reader.depth || (reader.mode ≠ .comment && reader.slash)

def Above : Reader → Text → Prop
  | _, [] => True
  | reader, c :: rest => 0 ≤ (reader.next c).depth ∧ (reader.next c).Above rest

def Held : Reader → Text → Prop
  | _, [] => True
  | reader, c :: rest => (c = '\n' → reader.keepsOpen = true) ∧ (reader.next c).Held rest

theorem above_append {reader : Reader} :
    reader.Above (first ++ last) ↔ reader.Above first ∧ (reader.run first).Above last := by
  induction first generalizing reader with
  | nil => simp [Above]
  | cons c rest ih => simp [Above, ih, and_assoc]

theorem held_append {reader : Reader} :
    reader.Held (first ++ last) ↔ reader.Held first ∧ (reader.run first).Held last := by
  induction first generalizing reader with
  | nil => simp [Held]
  | cons c rest ih => simp [Held, ih, and_assoc]

theorem Above.depth_run_nonneg {reader : Reader} (h : reader.Above text) (ground : 0 ≤ reader.depth) :
    0 ≤ (reader.run text).depth := by
  induction text generalizing reader with
  | nil => exact ground
  | cons c rest ih => exact ih h.2 h.1

theorem above_iff_prefixes {reader : Reader} (ground : 0 ≤ reader.depth) :
    reader.Above text ↔ ∀ n ≤ text.length, 0 ≤ reader.depth + reader.mode.bracketDelta (text.take n) := by
  constructor
  · intro above n _
    rw [← depth_run]
    rw [← List.take_append_drop n text, above_append] at above
    exact above.1.depth_run_nonneg ground
  · intro prefixes
    induction text generalizing reader with
    | nil => trivial
    | cons c rest ih =>
      have first : 0 ≤ (reader.next c).depth := by
        have := prefixes 1 (by simp)
        rw [← depth_run] at this
        simpa using this
      refine ⟨first, ih first fun n le => ?_⟩
      have := prefixes (n + 1) (by simpa using le)
      rw [← depth_run] at this ⊢
      simpa using this

theorem Above.deeper {mode : Mode} {depth deeper : Int} {slash slash' : Bool}
    (h : (⟨mode, depth, slash⟩ : Reader).Above text) (le : depth ≤ deeper) :
    (⟨mode, deeper, slash'⟩ : Reader).Above text := by
  induction text generalizing mode depth deeper slash slash' with
  | nil => trivial
  | cons c rest ih =>
    obtain ⟨first, others⟩ := h
    simp only [next] at first others
    have le' : depth + _ ≤ deeper + (if mode.readsCode c then bracketWeight c else 0) := Int.add_le_add_right le _
    exact ⟨Int.le_trans first le', ih others le'⟩

theorem Above.held_deeper {deeper : Int} (h : (⟨mode, depth, slash⟩ : Reader).Above text) (ground : 0 ≤ depth)
    (lt : depth < deeper) : (⟨mode, deeper, slash'⟩ : Reader).Held text := by
  induction text generalizing mode depth deeper slash slash' with
  | nil => trivial
  | cons c rest ih =>
    obtain ⟨first, others⟩ := h
    simp only [next] at first others
    have lt' : depth + _ < deeper + (if mode.readsCode c then bracketWeight c else 0) := Int.add_lt_add_right lt _
    refine ⟨fun _ => ?_, ih others first lt'⟩
    simp [keepsOpen, Int.lt_of_le_of_lt ground lt]

theorem held_of_newline_not_mem {reader : Reader} (h : '\n' ∉ text) : reader.Held text := by
  induction text generalizing reader with
  | nil => trivial
  | cons c rest ih =>
    rw [List.mem_cons, not_or] at h
    exact ⟨fun newline => absurd newline.symm h.1, ih h.2⟩

/-! ## Taking a text -/

structure Takes (reader : Reader) (text : Text) (target : Reader) : Prop where
  run : reader.run text = target
  above : reader.Above text
  held : reader.Held text

theorem Takes.nil (reader : Reader) : reader.Takes [] reader :=
  ⟨rfl, trivial, trivial⟩

theorem Takes.append {reader between : Reader} (h : reader.Takes first between) (h' : between.Takes last target) :
    reader.Takes (first ++ last) target where
  run := by rw [run_append, h.run, h'.run]
  above := above_append.2 ⟨h.above, h.run ▸ h'.above⟩
  held := held_append.2 ⟨h.held, h.run ▸ h'.held⟩

theorem Takes.left {reader : Reader} (h : reader.Takes (first ++ last) target) :
    reader.Takes first (reader.run first) :=
  ⟨rfl, (above_append.1 h.above).1, (held_append.1 h.held).1⟩

theorem Takes.right {reader between : Reader} (h : reader.Takes (first ++ last) target)
    (same : reader.run first = between) : between.Takes last target := by
  subst same
  exact ⟨by rw [← run_append, h.run], (above_append.1 h.above).2, (held_append.1 h.held).2⟩

theorem Takes.cons {reader : Reader} {rest : Text} (ground : 0 ≤ (reader.next c).depth) (notNewline : c ≠ '\n')
    (h : (reader.next c).Takes rest target) : reader.Takes (c :: rest) target :=
  ⟨h.run, ⟨ground, h.above⟩, ⟨fun newline => absurd newline notNewline, h.held⟩⟩

/-! ## Quiet texts -/

theorem next_of_quiet {reader : Reader} (settled : reader.mode.isSettled) (quiet : isQuiet c) :
    reader.next c = ⟨.code, reader.depth, false⟩ := by
  simp only [isQuiet, marks, Bool.not_eq_true', List.contains_eq_mem, decide_eq_false_iff_not, List.mem_cons,
    List.not_mem_nil, or_false, not_or] at quiet
  obtain ⟨notComment, notSingle, notDouble, notSlash, notBracket⟩ := quiet
  have reads := Mode.readsCode_of_settled settled ⟨notComment, notSingle, notDouble⟩
  have weight : bracketWeight c = 0 := by simp [bracketWeight, isOpener, isCloser, notBracket]
  simp [next, reads, Mode.next_of_readsCode reads, weight, notSlash]

theorem run_quiet {reader : Reader} (settled : reader.mode.isSettled) (quiet : ∀ c ∈ text, isQuiet c)
    (nonempty : text ≠ []) : reader.run text = ⟨.code, reader.depth, false⟩ := by
  induction text generalizing reader with
  | nil => exact absurd rfl nonempty
  | cons c rest ih =>
    rw [run_cons, next_of_quiet settled (quiet c List.mem_cons_self)]
    cases rest with
    | nil => rfl
    | cons d rest => exact ih rfl (fun e mem => quiet e (List.mem_cons_of_mem _ mem)) (by simp)

theorem run_start_quiet (quiet : ∀ c ∈ text, isQuiet c) : start.run text = start := by
  cases text with
  | nil => rfl
  | cons c rest => exact run_quiet rfl quiet (by simp)

theorem above_quiet {reader : Reader} (settled : reader.mode.isSettled) (ground : 0 ≤ reader.depth)
    (quiet : ∀ c ∈ text, isQuiet c) : reader.Above text := by
  induction text generalizing reader with
  | nil => trivial
  | cons c rest ih =>
    have first := next_of_quiet settled (quiet c List.mem_cons_self)
    refine ⟨by rwa [first], ?_⟩
    rw [first]
    exact ih rfl ground fun e mem => quiet e (List.mem_cons_of_mem _ mem)

theorem takes_quiet {reader : Reader} (settled : reader.mode.isSettled) (ground : 0 ≤ reader.depth)
    (quiet : ∀ c ∈ text, isQuiet c) (oneLine : '\n' ∉ text) (nonempty : text ≠ []) :
    reader.Takes text ⟨.code, reader.depth, false⟩ :=
  ⟨run_quiet settled quiet nonempty, above_quiet settled ground quiet, held_of_newline_not_mem oneLine⟩

/-! ## Strings and brackets -/

theorem next_bracket {reader : Reader} (settled : reader.mode.isSettled) (h : isOpener c ∨ isCloser c) :
    reader.next c = ⟨.code, reader.depth + bracketWeight c, false⟩ := by
  have reads : reader.mode.readsCode c := by
    apply Mode.readsCode_of_settled settled
    refine ⟨?_, ?_, ?_⟩ <;>
    · rintro rfl
      cases h <;> contradiction
  have notSlash : c ≠ '\\' := by
    rintro rfl
    cases h <;> contradiction
  simp [next, reads, Mode.next_of_readsCode reads, notSlash]

theorem next_opener {reader : Reader} (settled : reader.mode.isSettled) (h : isOpener c) :
    reader.next c = ⟨.code, reader.depth + 1, false⟩ := by
  rw [next_bracket settled (.inl h), bracketWeight, if_pos h]

theorem next_closer {reader : Reader} (settled : reader.mode.isSettled) (h : isCloser c) :
    reader.next c = ⟨.code, reader.depth - 1, false⟩ := by
  have notOpener : ¬ isOpener c := fun opens => by simp [isCloser_of_isOpener opens] at h
  rw [next_bracket settled (.inr h), bracketWeight, if_neg notOpener, if_pos h, Int.sub_eq_add_neg]

end Reader

/-- A text that may stand between brackets: all its brackets and strings are closed. -/
structure Closed (text : Text) : Prop where
  above : Reader.start.Above text
  depth : (Reader.start.run text).depth = 0
  settled : (Reader.start.run text).mode.isSettled = true

instance (text : Text) : Decidable (Closed text) :=
  decidable_of_iff
    ((∀ n ≤ text.length, 0 ≤ Reader.start.depth + Reader.start.mode.bracketDelta (text.take n)) ∧
      (Reader.start.run text).depth = 0 ∧ (Reader.start.run text).mode.isSettled = true)
    ⟨fun h => ⟨(Reader.above_iff_prefixes (Int.le_refl 0)).2 h.1, h.2.1, h.2.2⟩,
      fun h => ⟨(Reader.above_iff_prefixes (Int.le_refl 0)).1 h.above, h.depth, h.settled⟩⟩

namespace Reader

theorem run_closed (closed : Closed text) (depth : Int) (slash : Bool) :
    ∃ mode last, mode.isSettled ∧ (⟨.code, depth, slash⟩ : Reader).run text = ⟨mode, depth, last⟩ := by
  have mode : (run ⟨.code, depth, slash⟩ text).mode = Mode.code.run text := mode_run ..
  have level : (run ⟨.code, depth, slash⟩ text).depth = depth + Mode.code.bracketDelta text := depth_run ..
  have settled : (Mode.code.run text).isSettled := mode_run start text ▸ closed.settled
  have delta : 0 + Mode.code.bracketDelta text = 0 := depth_run start text ▸ closed.depth
  refine ⟨_, (run ⟨.code, depth, slash⟩ text).slash, settled, ?_⟩
  rw [Int.zero_add] at delta
  rw [delta, Int.add_zero] at level
  rw [← mode]
  generalize run ⟨.code, depth, slash⟩ text = reached at level
  subst level
  rfl

theorem takes_brackets {inner : Text} {reader : Reader} {first last : Char} (settled : reader.mode.isSettled)
    (ground : 0 ≤ reader.depth) (opens : isOpener first) (closes : isCloser last) (closed : Closed inner) :
    reader.Takes (first :: (inner ++ [last])) ⟨.code, reader.depth, false⟩ := by
  have enter := next_opener settled opens
  obtain ⟨mode, slash, inside, reached⟩ := run_closed closed (reader.depth + 1) false
  have leave : (⟨mode, reader.depth + 1, slash⟩ : Reader).next last = ⟨.code, reader.depth, false⟩ := by
    rw [next_closer inside closes]
    simp
  have body : (⟨.code, reader.depth + 1, false⟩ : Reader).Takes inner ⟨mode, reader.depth + 1, slash⟩ :=
    ⟨reached, closed.above.deeper (by omega), closed.above.held_deeper (Int.le_refl _) (by omega)⟩
  have ne (c : Char) (h : isOpener c ∨ isCloser c) : c ≠ '\n' := by
    rintro rfl
    simp [isOpener, isCloser] at h
  refine Takes.cons (by rw [enter]; exact Int.le_of_lt (Int.lt_add_one_of_le ground)) (ne _ (.inl opens)) ?_
  rw [enter]
  refine body.append (Takes.cons (by rwa [leave]) (ne _ (.inr closes)) ?_)
  rw [leave]
  exact .nil _

theorem next_inString (quiet : isQuiet c) :
    (⟨.short .double, depth, false⟩ : Reader).next c = ⟨.short .double, depth, false⟩ ∧
      (⟨.quoteOne .double, depth, false⟩ : Reader).next c = ⟨.short .double, depth, false⟩ := by
  have notDouble : c ≠ '"' := by rintro rfl; cases quiet
  have notSlash : c ≠ '\\' := by rintro rfl; cases quiet
  simp [next, Mode.next, Mode.afterShort, Quote.char, Mode.readsCode, notDouble, notSlash]

theorem takes_short (ground : 0 ≤ depth) (quiet : ∀ c ∈ text, isQuiet c) (oneLine : '\n' ∉ text) :
    (⟨.short .double, depth, false⟩ : Reader).Takes text ⟨.short .double, depth, false⟩ := by
  induction text with
  | nil => exact .nil _
  | cons c rest ih =>
    rw [List.forall_mem_cons] at quiet
    rw [List.mem_cons, not_or] at oneLine
    have step : (⟨.short .double, depth, false⟩ : Reader).next c = _ := (next_inString quiet.1).1
    refine .cons (by rwa [step]) (Ne.symm oneLine.1) ?_
    rw [step]
    exact ih quiet.2 oneLine.2

theorem takes_quoted (ground : 0 ≤ depth) (nonempty : text ≠ []) (quiet : ∀ c ∈ text, isQuiet c) (oneLine : '\n' ∉ text) :
    (⟨.code, depth, slash⟩ : Reader).Takes ('"' :: (text ++ ['"'])) ⟨.code, depth, false⟩ := by
  obtain ⟨c, rest, rfl⟩ := List.exists_cons_of_ne_nil nonempty
  rw [List.forall_mem_cons] at quiet
  rw [List.mem_cons, not_or] at oneLine
  have enter : (⟨.code, depth, slash⟩ : Reader).next '"' = ⟨.quoteOne .double, depth, false⟩ := by
    simp [next, Mode.next, Mode.afterCode, Mode.readsCode]
  have first : (⟨.quoteOne .double, depth, false⟩ : Reader).next c = _ := (next_inString quiet.1).2
  have leave : (⟨.short .double, depth, false⟩ : Reader).next '"' = ⟨.code, depth, false⟩ := by
    simp [next, Mode.next, Mode.afterShort, Quote.char, Mode.readsCode]
  refine .cons (by rwa [enter]) (by decide) ?_
  rw [enter]
  refine .cons (by rwa [first]) (Ne.symm oneLine.1) ?_
  rw [first]
  refine (takes_short ground quiet.2 oneLine.2).append (.cons (by rwa [leave]) (by decide) ?_)
  rw [leave]
  exact .nil _

/-! ## White space at the ends -/

theorem settled_before_blank {reader : Reader} (blank : Text.isBlankChar c) (ground : reader.depth = 0)
    (held : c = '\n' → reader.keepsOpen) (h : (reader.next c).mode.isSettled) : reader.mode.isSettled := by
  by_cases newline : c = '\n'
  · subst newline
    have carried : (reader.mode.next '\n').isSettled := h
    rw [Mode.next_newline] at carried
    have keeps := held rfl
    simp only [keepsOpen, ground] at keeps
    cases mode : reader.mode <;> simp_all [Mode.isSettled, Mode.carry, Carry.mode]
  · have notSingle : c ≠ '\'' := by rintro rfl; revert blank; decide
    have notDouble : c ≠ '"' := by rintro rfl; revert blank; decide
    exact Mode.settled_of_next h newline notSingle notDouble

theorem depth_next_blank {reader : Reader} (blank : Text.isBlankChar c) : (reader.next c).depth = reader.depth := by
  have quiet := isQuiet_of_isBlankChar blank
  have weight : bracketWeight c = 0 := by
    simp only [isQuiet, marks, Bool.not_eq_true', List.contains_eq_mem, decide_eq_false_iff_not, List.mem_cons,
      List.not_mem_nil, or_false, not_or] at quiet
    simp [bracketWeight, isOpener, isCloser, quiet]
  simp [next, weight]

theorem depth_run_blank {reader : Reader} (blank : ∀ c ∈ text, Text.isBlankChar c) :
    (reader.run text).depth = reader.depth := by
  induction text generalizing reader with
  | nil => rfl
  | cons c rest ih =>
    rw [List.forall_mem_cons] at blank
    rw [run_cons, ih blank.2, depth_next_blank blank.1]

theorem settled_before_blanks {reader : Reader} (blank : ∀ c ∈ text, Text.isBlankChar c) (ground : reader.depth = 0)
    (held : reader.Held text) (h : (reader.run text).mode.isSettled) : reader.mode.isSettled := by
  induction text generalizing reader with
  | nil => exact h
  | cons c rest ih =>
    rw [List.forall_mem_cons] at blank
    have later := ih blank.2 (by rw [depth_next_blank blank.1, ground]) held.2 h
    exact settled_before_blank blank.1 ground held.1 later

theorem slash_run {reader : Reader} (clear : reader.slash = false) (text : Text) :
    (reader.run text).slash = Text.endsWithChar text '\\' := by
  cases text with
  | nil => exact clear
  | cons c rest => exact slash_run_of_ne_nil _ (by simp)

theorem run_comment {reader : Reader} (comment : reader.mode = .comment) (ground : reader.depth = 0)
    (held : reader.Held text) : (reader.run text).mode = .comment := by
  induction text generalizing reader with
  | nil => exact comment
  | cons c rest ih =>
    have inLine : c ≠ '\n' := by
      rintro rfl
      have keeps := held.1 rfl
      simp [keepsOpen, comment, ground, Mode.carry] at keeps
    have still : (reader.next c).mode = .comment := by simp [next, comment, Mode.next, inLine]
    have level : (reader.next c).depth = 0 := by simp [next, comment, Mode.readsCode, inLine, ground]
    exact ih still level held.2

end Reader

/-! ## Texts that leave nothing open -/

theorem Closed.behind (closed : Closed text) (taken : Reader.start.Takes front Reader.start) :
    Closed (front ++ text) := by
  refine ⟨Reader.above_append.2 ⟨taken.above, ?_⟩, ?_, ?_⟩
  · rw [taken.run]
    exact closed.above
  · rw [Reader.run_append, taken.run]
    exact closed.depth
  · rw [Reader.run_append, taken.run]
    exact closed.settled

theorem Closed.bracketed (closed : Closed text) : Reader.start.Takes ('(' :: (text ++ [')'])) Reader.start :=
  Reader.takes_brackets rfl (Int.le_refl 0) rfl rfl closed

structure Settles (text : Text) : Prop extends Closed text where
  held : Reader.start.Held text

namespace Settles

theorem of_takes (h : Reader.start.Takes text ⟨mode, 0, slash⟩) (settled : mode.isSettled) : Settles text :=
  ⟨⟨h.above, by rw [h.run], by rwa [h.run]⟩, h.held⟩

theorem takes (h : Settles text) :
    Reader.start.Takes text ⟨(Reader.start.run text).mode, 0, Text.endsWithChar text '\\'⟩ := by
  refine ⟨?_, h.above, h.held⟩
  rw [← Reader.slash_run (show Reader.start.slash = false from rfl), ← h.depth]

theorem behind_quiet (h : Settles (first ++ last)) (quiet : ∀ c ∈ first, isQuiet c) : Settles last :=
  .of_takes (h.takes.right (Reader.run_start_quiet quiet)) h.settled

theorem quiet_append (quiet : ∀ c ∈ first, isQuiet c) (oneLine : '\n' ∉ first) (h : Settles last) :
    Settles (first ++ last) := by
  have before : Reader.start.Takes first Reader.start :=
    ⟨Reader.run_start_quiet quiet, Reader.above_quiet rfl (Int.le_refl _) quiet, Reader.held_of_newline_not_mem oneLine⟩
  exact .of_takes (before.append h.takes) h.settled

theorem before_blanks (h : Settles (text ++ blanks)) (blank : ∀ c ∈ blanks, Text.isBlankChar c) : Settles text := by
  have depth := h.depth
  have settled := h.settled
  rw [Reader.run_append] at depth settled
  rw [Reader.depth_run_blank blank] at depth
  have held := (Reader.held_append.1 h.held).2
  exact ⟨⟨h.takes.left.above, depth, Reader.settled_before_blanks blank depth held settled⟩, h.takes.left.held⟩

theorem trimLeft (h : Settles text) : Settles (Text.trimLeft text) := by
  rw [← Text.leadingBlanks_append_trimLeft text] at h
  exact h.behind_quiet fun c mem => isQuiet_of_isBlankChar (Text.isBlankChar_of_mem_leadingBlanks mem)

theorem trim (h : Settles text) : Settles (Text.trim text) := by
  obtain ⟨blanks, whole, blank⟩ := Text.trimRight_append_blanks (Text.trimLeft text)
  have left := h.trimLeft
  rw [← whole] at left
  exact left.before_blanks blank

theorem head_ne_comment : ¬ Settles ('#' :: rest) := by
  intro h
  have settled := h.settled
  rw [Reader.run_cons, Reader.run_comment rfl rfl h.held.2] at settled
  cases settled

end Settles

end LineProbe
