import LineProbe.Proofs.MockArguments
import LineProbe.Proofs.Spans
import LineProbe.Proofs.Standing

/-!
# Comments made of directives

A comment that is nothing but directives, with white space and commas between them, is read item by item.
-/

namespace LineProbe

open Text

namespace Directives

/-! ## Items -/

inductive Kind where
  | mock
  | limit
deriving DecidableEq

def Kind.name : Kind → Text
  | .mock => "mock"
  | .limit => "limit"

def isSeparator (c : Char) : Bool :=
  isBlankChar c || c == ','

/-- A directive as it is written, behind a gap that separates it from what stands before it. -/
structure Item where
  gap : Text
  kind : Kind
  blanks : Text
  argument : Text

namespace Item

def call (item : Item) : Text :=
  item.kind.name ++ (item.blanks ++ '(' :: (item.argument ++ [')']))

def text (item : Item) : Text :=
  item.gap ++ item.call

/-- The argument leaves nothing open, has no comment in it and closes no bracket that it has not opened. -/
structure WellFormed (item : Item) : Prop where
  gap : ∀ c ∈ item.gap, isSeparator c = true
  blanks : ∀ c ∈ item.blanks, isBlankChar c = true
  scanned : scan .closed item.argument = ⟨0, .closed, .none⟩
  opened : ∀ n ≤ item.argument.length, 0 ≤ (scan .closed (item.argument.take n)).delta

/-- The limit that an item sets: that of a mock, or of an argument which is no positive integer, is none. -/
def limit? (item : Item) : Option Int :=
  match item.kind, readInteger (trim item.argument) with
  | .limit, .ok value => if 0 < value then some value else .none
  | _, _ => .none

theorem WellFormed.closed {item : Item} (h : item.WellFormed) : Closed item.argument := by
  have scanned := h.scanned
  simp only [scan, Carry.mode, Scan.mk.injEq] at scanned
  obtain ⟨delta, carry, unmarked⟩ := scanned
  refine ⟨?_, ?_, ?_⟩
  · apply (Reader.above_iff_prefixes (Int.le_refl 0)).2
    intro n bound
    simpa [Reader.start, scan, Carry.mode] using h.opened n bound
  · rw [Reader.depth_run]
    simpa [Reader.start] using delta
  · rw [Reader.mode_run]
    exact Mode.settled_of_carry carry (Mode.run_ne_comment unmarked (by simp [Reader.start]))

end Item

/-- The comment that some items make, up to and with the separators behind the last one. -/
def written (items : List Item) (tail : Text) : Text :=
  items.flatMap Item.text ++ tail

/-! ## Calls in a written comment -/

theorem isQuiet_of_isSeparator (h : isSeparator c) : isQuiet c :=
  isQuiet_of (by decide) h

theorem isWordChar_of_isSeparator (h : isSeparator c) : isWordChar c = false := by
  rw [isSeparator, Bool.or_eq_true, beq_iff_eq] at h
  rcases h with blank | rfl
  · exact isWordChar_of_isBlankChar blank
  · decide

theorem isQuiet_of_mem_name {kind : Kind} (h : c ∈ kind.name) : isQuiet c := by
  have all : ∀ c ∈ kind.name, isQuiet c := by cases kind <;> decide
  exact all c h

theorem startsWith_of_head_ne (differ : d ≠ c) (rest word : Text) : startsWith (c :: rest) (d :: word) = false := by
  simp [startsWith, List.isPrefixOf, differ]

def names : List Text :=
  [Kind.mock.name, Kind.limit.name]

theorem callAtStart?_cons_of_not_startsWith (differ : startsWith text name = false) (others : List Text) :
    callAtStart? (name :: others) text = callAtStart? others text := by
  rw [callAtStart?, List.findSome?_cons]
  simp only [differ, Bool.false_and, Bool.false_eq_true, if_false]
  rfl

theorem callAtStart?_cons_self (name : Text) (others : List Text) (blank : ∀ c ∈ blanks, isBlankChar c) (rest : Text) :
    callAtStart? (name :: others) (name ++ (blanks ++ '(' :: rest)) = some (name, (name ++ blanks).length) := by
  have paren : trimLeft (blanks ++ '(' :: rest) = '(' :: rest := by
    rw [trimLeft_append_of_blank blank]
    exact trimLeft_of_head (by simp; decide)
  have own : startsWith (name ++ (blanks ++ '(' :: rest)) name := by
    simp [startsWith]
  have length : (name ++ (blanks ++ '(' :: rest)).length - ('(' :: rest).length = (name ++ blanks).length := by
    simp only [List.length_append]
    omega
  rw [callAtStart?, List.findSome?_cons]
  simp only [List.drop_left, paren, own, length]
  rfl

theorem callAtStart?_name (kind : Kind) (blank : ∀ c ∈ blanks, isBlankChar c) (rest : Text) :
    callAtStart? names (kind.name ++ (blanks ++ '(' :: rest)) = some (kind.name, (kind.name ++ blanks).length) := by
  cases kind with
  | mock => exact callAtStart?_cons_self _ _ blank rest
  | limit =>
    have other : startsWith (Kind.limit.name ++ (blanks ++ '(' :: rest)) Kind.mock.name = false :=
      startsWith_of_head_ne (show 'm' ≠ 'l' by decide) _ _
    rw [names, callAtStart?_cons_of_not_startsWith other]
    exact callAtStart?_cons_self _ _ blank rest

theorem callAtStart?_separator (h : isSeparator c) (rest : Text) : callAtStart? names (c :: rest) = .none := by
  have apart {d : Char} (other : isSeparator d = false) : d ≠ c := by
    rintro rfl
    rw [h] at other
    cases other
  have mock : startsWith (c :: rest) Kind.mock.name = false := startsWith_of_head_ne (apart (by decide)) _ _
  have limit : startsWith (c :: rest) Kind.limit.name = false := startsWith_of_head_ne (apart (by decide)) _ _
  rw [names, callAtStart?_cons_of_not_startsWith mock, callAtStart?_cons_of_not_startsWith limit]
  rfl

theorem callsFrom_gap {stops : Char → Bool} {previous : Option Char} {index : Nat} {gap : Text}
    (separators : ∀ c ∈ gap, isSeparator c) (rest : Text) :
    callsFrom names stops previous index (gap ++ rest) =
      callsFrom names stops (gap.getLast?.or previous) (index + gap.length) rest := by
  induction gap generalizing previous index with
  | nil => rfl
  | cons c gap ih =>
    rw [List.forall_mem_cons] at separators
    rw [List.cons_append, callsFrom, callAtStart?_separator separators.1, ite_self, ih separators.2, getLast?_cons_or,
      List.length_cons, Nat.add_right_comm, Nat.add_assoc]

theorem collect_callsFrom (part rest : Text) :
    collect comment directives (index + part.length) (callsFrom names stops previous index (part ++ rest)) =
      collect comment directives (index + part.length)
        (callsFrom names stops (part.getLast?.or previous) (index + part.length) rest) :=
  callsFrom_append_of_skips part rest fun call calls early => by rw [collect, if_pos early]

/-! ## Reading items -/

structure Ready (before : Text) (previous : Option Char) : Prop where
  outside : Reader.start.run before = .start
  apart : previous.any isWordChar = false

theorem Ready.gap {before gap : Text} (h : Ready before previous) (separators : ∀ c ∈ gap, isSeparator c) :
    Ready (before ++ gap) (gap.getLast?.or previous) := by
  constructor
  · rw [Reader.run_append, h.outside, Reader.run_start_quiet fun c mem => isQuiet_of_isSeparator (separators c mem)]
  · cases last : gap.getLast? with
    | none => exact h.apart
    | some c => exact isWordChar_of_isSeparator (separators c (List.mem_of_getLast? last))

theorem Ready.name (h : Ready before previous) {item : Item} (wellFormed : item.WellFormed) :
    Reader.start.run (before ++ (item.kind.name ++ item.blanks)) = .start := by
  have quiet : ∀ c ∈ item.kind.name ++ item.blanks, isQuiet c := by
    intro c mem
    rcases List.mem_append.1 mem with mem | mem
    · exact isQuiet_of_mem_name mem
    · exact isQuiet_of_isBlankChar (wellFormed.blanks c mem)
  rw [Reader.run_append, h.outside, Reader.run_start_quiet quiet]

theorem Ready.call {before : Text} {previous : Option Char} (h : Ready before previous) {item : Item}
    (wellFormed : item.WellFormed) : Ready (before ++ item.call) (some ')') := by
  refine ⟨?_, by decide⟩
  have whole : before ++ item.call = (before ++ (item.kind.name ++ item.blanks)) ++ '(' :: (item.argument ++ [')']) := by
    simp [Item.call]
  rw [whole, Reader.run_append, h.name wellFormed, wellFormed.closed.bracketed.run]

def take (directives : Directives) (item : Item) : Directives :=
  directives.add item.kind.name (trim item.argument)

section

variable {item : Item}

theorem matchingBracket?_call (ready : Ready before previous) (wellFormed : item.WellFormed) (rest : Text) :
    matchingBracket? (before ++ (item.call ++ rest)) (before.length + (item.kind.name ++ item.blanks).length) =
      some (before.length + (item.kind.name ++ item.blanks).length + 1 + item.argument.length) := by
  have settled : (Mode.code.run (before ++ (item.kind.name ++ item.blanks))).isSettled := by
    have mode := congrArg Reader.mode (ready.name wellFormed)
    rw [Reader.mode_run] at mode
    exact mode ▸ rfl
  have found := wellFormed.closed.matchingBracket? settled (show isOpener '(' from rfl)
    (show isCloser ')' from rfl) rest
  simpa [Item.call] using found

theorem slice_call (before rest : Text) (item : Item) :
    slice (before ++ (item.call ++ rest)) (before.length + (item.kind.name ++ item.blanks).length + 1)
      (before.length + (item.kind.name ++ item.blanks).length + 1 + item.argument.length) = item.argument := by
  have cut := Construct.slice_append (before ++ (item.kind.name ++ item.blanks) ++ ['(']) item.argument (')' :: rest)
  simpa [Item.call, Nat.add_assoc] using cut

theorem collect_call (ready : Ready before previous) (wellFormed : item.WellFormed) (directives : Directives)
    (reached : position ≤ before.length) (rest : Text) :
    collect (before ++ (item.call ++ rest)) directives position
        (callsFrom names isWordChar previous before.length (item.call ++ rest)) =
      collect (before ++ (item.call ++ rest)) (directives.take item) (before ++ item.call).length
        (callsFrom names isWordChar (some ')') (before ++ item.call).length rest) := by
  have found : callAtStart? names (item.call ++ rest) =
      some (item.kind.name, (item.kind.name ++ item.blanks).length) := by
    simpa [Item.call] using callAtStart?_name item.kind wellFormed.blanks (item.argument ++ ')' :: rest)
  have close := matchingBracket?_call ready wellFormed rest
  have cut := slice_call before rest item
  have last : item.call.getLast? = some ')' := by
    have whole : item.call = (item.kind.name ++ (item.blanks ++ '(' :: item.argument)) ++ [')'] := by simp [Item.call]
    rw [whole, List.getLast?_concat]
  have length : item.call.length = (item.kind.name ++ item.blanks).length + 1 + item.argument.length + 1 := by
    simp only [Item.call, List.length_append, List.length_cons, List.length_nil]
    omega
  generalize before ++ (item.call ++ rest) = comment at close cut ⊢
  rw [List.length_append]
  obtain ⟨c, part, split⟩ : ∃ c part, item.call = c :: part := by
    cases call : item.call with
    | nil => simp [Item.call] at call
    | cons c part => exact ⟨c, part, rfl⟩
  rw [split] at found length last ⊢
  rw [List.cons_append, callsFrom, if_neg (by simp [ready.apart]), ← List.cons_append, found]
  dsimp only
  rw [collect, if_neg (Nat.not_lt.2 reached)]
  dsimp only
  rw [close]
  dsimp only
  have resumed : before.length + (c :: part).length = before.length + 1 + part.length := by
    rw [List.length_cons]
    omega
  have behind : before.length + (item.kind.name ++ item.blanks).length + 1 + item.argument.length + 1 =
      before.length + 1 + part.length := by omega
  rw [cut, behind, resumed, collect_callsFrom, ← getLast?_cons_or c part .none, last]
  rfl

theorem collect_item (ready : Ready before previous) (wellFormed : item.WellFormed) (directives : Directives)
    (rest : Text) :
    collect (before ++ (item.text ++ rest)) directives before.length
        (callsFrom names isWordChar previous before.length (item.text ++ rest)) =
      collect (before ++ (item.text ++ rest)) (directives.take item) (before ++ item.text).length
        (callsFrom names isWordChar (some ')') (before ++ item.text).length rest) := by
  have read := collect_call (ready.gap wellFormed.gap) wellFormed directives
    (show before.length ≤ (before ++ item.gap).length by simp) rest
  rw [Item.text, List.append_assoc, callsFrom_gap wellFormed.gap, ← List.length_append]
  simpa only [List.append_assoc] using read

end

theorem collect_written (wellFormed : ∀ item ∈ items, item.WellFormed) (separators : ∀ c ∈ tail, isSeparator c)
    (ready : Ready before previous) (directives : Directives) :
    collect (before ++ written items tail) directives before.length
      (callsFrom names isWordChar previous before.length (written items tail)) = items.foldl take directives := by
  induction items generalizing before previous directives with
  | nil =>
    have silent := @callsFrom_gap isWordChar previous before.length tail separators []
    rw [List.append_nil] at silent
    rw [written, List.flatMap_nil, List.nil_append, silent]
    rfl
  | cons item items ih =>
    rw [List.forall_mem_cons] at wellFormed
    have whole : written (item :: items) tail = item.text ++ written items tail := by simp [written]
    have next : Ready (before ++ item.text) (some ')') := by
      rw [Item.text, ← List.append_assoc]
      exact (ready.gap wellFormed.1.gap).call wellFormed.1
    rw [whole, collect_item ready wellFormed.1, ← List.append_assoc, ih wellFormed.2 next]
    rfl

/-! ## What is read -/

theorem ofItems_mock (items : List Item) :
    (items.foldl take none).mock = (items.reverse.find? (·.kind = .mock)).map fun item => trim item.argument := by
  induction items using List.reverseRecOn with
  | nil => rfl
  | append_singleton items item ih =>
    rw [List.foldl_append, List.foldl_cons, List.foldl_nil, List.reverse_concat, List.find?_cons, take, add]
    cases kind : item.kind with
    | mock => rfl
    | limit => exact ih

theorem ofItems_limit (items : List Item) : (items.foldl take none).limit = items.reverse.findSome? Item.limit? := by
  induction items using List.reverseRecOn with
  | nil => rfl
  | append_singleton items item ih =>
    rw [List.foldl_append, List.foldl_cons, List.foldl_nil, List.reverse_concat, List.findSome?_cons, take, add]
    cases kind : item.kind with
    | mock =>
      have none : item.limit? = .none := by rw [Item.limit?, kind]
      rw [none]
      exact ih
    | limit =>
      have own : limitOf? (trim item.argument) = item.limit? := by
        rw [limitOf?, Item.limit?, kind]
        split <;> simp_all
      have other : Kind.limit.name ≠ "mock" := by decide
      rw [if_neg other, own, ih]
      cases item.limit? <;> rfl

/-- A comment made of directives says what its items say: the mock is the argument of the last mock, without the white
space around it, and the limit is that of the last limit whose argument is a positive integer. -/
theorem ofComment_written (items : List Item) (wellFormed : ∀ item ∈ items, item.WellFormed) (tail : Text)
    (separators : ∀ c ∈ tail, isSeparator c = true) :
    ofComment (written items tail) =
      ⟨(items.reverse.find? (·.kind = .mock)).map fun item => trim item.argument,
        items.reverse.findSome? Item.limit?⟩ := by
  have start : Ready [] .none := ⟨rfl, rfl⟩
  have read : ofComment (written items tail) = items.foldl take none := collect_written wellFormed separators start none
  rw [read, ← ofItems_mock, ← ofItems_limit]

theorem ofComment_written_sample :
    ofComment "limit (3), mock( f(\"mock(\", [limit(0)]) ) limit(x),limit(-1) ," =
      ⟨some "f(\"mock(\", [limit(0)])", some 3⟩ := by
  let items : List Item :=
    [⟨[], .limit, " ", "3"⟩, ⟨", ", .mock, [], " f(\"mock(\", [limit(0)]) "⟩, ⟨" ", .limit, [], "x"⟩,
      ⟨",", .limit, [], "-1"⟩]
  have wellFormed : ∀ item ∈ items, item.WellFormed := by
    simp only [items, List.forall_mem_cons]
    refine ⟨?_, ?_, ?_, ?_, by simp⟩ <;>
    exact ⟨by decide +kernel, by decide +kernel, by decide +kernel, by decide +kernel⟩
  have read := ofComment_written items wellFormed " ," (by decide +kernel)
  have text : written items " ," = "limit (3), mock( f(\"mock(\", [limit(0)]) ) limit(x),limit(-1) ," := by decide +kernel
  rw [← text, read]
  decide +kernel

end Directives

end LineProbe
