import LineProbe.Proofs.Assembly
import LineProbe.Proofs.Search

/-!
# Reading line by line

A statement is put together by reading one line after the other, each from the string that the line before leaves
open.
-/

namespace LineProbe

open Text

/-! ## What a character is read as -/

inductive CharClass where
  | code
  | string
  | comment
deriving DecidableEq, Repr

namespace Mode

def classOf (mode : Mode) (c : Char) : CharClass :=
  if mode.readsCode c then .code
  else if mode = .comment ∨ mode.startsComment c then .comment
  else .string

def classes : Mode → Text → List CharClass
  | _, [] => []
  | mode, c :: rest => mode.classOf c :: (mode.next c).classes rest

theorem classOf_eq_code_iff {mode : Mode} : mode.classOf c = .code ↔ mode.readsCode c := by
  unfold classOf
  split
  · next reads => simp [reads]
  · next unread => split <;> simp [unread]

theorem classOf_newline (mode : Mode) : mode.classOf '\n' = if mode.carry = .closed then .code else .string := by
  cases mode <;> simp [classOf, readsCode, startsComment, carry]

theorem classes_append (mode : Mode) (first last : Text) :
    mode.classes (first ++ last) = mode.classes first ++ (mode.run first).classes last := by
  induction first generalizing mode with
  | nil => rfl
  | cons c rest ih => simp [classes, ih]

@[simp] theorem length_classes (mode : Mode) (text : Text) : (mode.classes text).length = text.length := by
  induction text generalizing mode with
  | nil => rfl
  | cons c rest ih => simp [classes, ih]

end Mode

theorem mem_index_places_iff :
    index ∈ (places text).map Place.index ↔ (Mode.code.classes text)[index]? = some .code := by
  by_cases bound : index < text.length
  · have whole := List.take_append_drop index text
    rw [List.drop_eq_getElem_cons bound] at whole
    have length : (text.take index).length = index := by
      rw [List.length_take]
      omega
    have here := contains_index_places (text.take index) text[index] (text.drop (index + 1))
    have reads : (Mode.code.classes text)[index]? = some ((Mode.code.run (text.take index)).classOf text[index]) := by
      conv => lhs; rw [← whole, Mode.classes_append]
      rw [List.getElem?_append_right (by simp [length])]
      simp [length, Mode.classes]
    rw [whole, length, Bool.eq_iff_iff, List.contains_iff_mem] at here
    rw [here, reads, Option.some.injEq, Mode.classOf_eq_code_iff]
  · rw [List.getElem?_eq_none (by simpa using bound)]
    simp only [reduceCtorEq, iff_false, List.mem_map, not_exists, not_and]
    rintro place mem rfl
    have := (Mode.index_mem_places mem).2
    omega

/-! ## Line breaks -/

theorem Mode.bracketDelta_newline (mode : Mode) (text : Text) :
    mode.bracketDelta ('\n' :: text) = mode.carry.mode.bracketDelta text := by
  have weight : bracketWeight '\n' = 0 := by decide
  rw [bracketDelta, weight, next_newline]
  simp

theorem Mode.commentStart?_newline (mode : Mode) (text : Text) :
    mode.commentStart? ('\n' :: text) = (mode.carry.mode.commentStart? text).map (· + 1) := by
  rw [commentStart?, if_neg, next_newline]
  cases mode <;> simp [startsComment]

theorem delta_scan_newline (carry : Carry) (first last : Text) :
    (scan carry (first ++ '\n' :: last)).delta =
      (scan carry first).delta + (scan (scan carry first).carry last).delta := by
  simp only [scan, Mode.bracketDelta_append, Mode.bracketDelta_newline]

theorem carry_scan_newline (carry : Carry) (first last : Text) :
    (scan carry (first ++ '\n' :: last)).carry = (scan (scan carry first).carry last).carry := by
  simp only [scan, Mode.run_append, Mode.run_cons, Mode.next_newline]

theorem comment_scan_newline (carry : Carry) (first last : Text) :
    (scan carry (first ++ '\n' :: last)).comment =
      (scan carry first).comment.or ((scan (scan carry first).carry last).comment.map (· + (first.length + 1))) := by
  simp only [scan, Mode.commentStart?_append, Mode.commentStart?_newline, Option.map_map]
  congr 2
  funext index
  simp only [Function.comp]
  omega

/-! ## Lines one by one -/

/-- What the characters of lines with a newline between each two of them belong to, where each line is read by itself
from the string that the line before leaves open. -/
def lineClasses : Carry → List Text → List CharClass
  | _, [] => []
  | carry, [line] => carry.mode.classes line
  | carry, line :: lines =>
    let left := (scan carry line).carry
    carry.mode.classes line ++ (if left = .closed then .code else .string) :: lineClasses left lines

theorem classes_joinLines (carry : Carry) (lines : List Text) :
    carry.mode.classes (joinLines lines) = lineClasses carry lines := by
  fun_induction lineClasses carry lines with
  | case1 => rfl
  | case2 carry line => rfl
  | case3 carry line lines several left ih =>
    rw [joinLines_cons line (by simpa using several), Mode.classes_append, Mode.classes, Mode.classOf_newline,
      Mode.next_newline, ← ih]
    rfl

theorem scan_joinLines_concat (before : List Text) (line : Text) :
    (scan .closed (joinLines (before ++ [line]))).delta = (scan .closed (joinLines before)).delta +
        (scan (scan .closed (joinLines before)).carry line).delta ∧
      (scan .closed (joinLines (before ++ [line]))).carry =
        (scan (scan .closed (joinLines before)).carry line).carry := by
  by_cases empty : before = []
  · subst empty
    exact ⟨(Int.zero_add _).symm, rfl⟩
  · rw [joinLines_append empty (by simp), show joinLines [line] = line from rfl]
    exact ⟨delta_scan_newline .., carry_scan_newline ..⟩

def goesOn (before : List Text) (line : Text) : Bool :=
  let whole := scan .closed (joinLines (before ++ [line]))
  whole.carry ≠ .closed || 0 < whole.delta ||
    ((scan (scan .closed (joinLines before)).carry line).comment.isNone && endsWithChar line '\\')

/-- The lines of a statement that goes on from `line`, where each decision is made by reading all of its text so far. -/
def wholeLines (before : List Text) (line : Text) : List Text → List Text
  | [] => [line]
  | next :: rest => if goesOn before line then line :: wholeLines (before ++ [line]) next rest else [line]

theorem lines_assembleFrom_wholeLines (index : Int) (before : List Text) (line : Text) (rest : List Text) :
    (assembleFrom index (scan .closed (joinLines before)).carry (scan .closed (joinLines before)).delta line rest).lines =
      wholeLines before line rest := by
  induction rest generalizing index before line with
  | nil => rfl
  | cons next rest ih =>
    obtain ⟨delta, carry⟩ := scan_joinLines_concat before line
    have decided : continues (scan (scan .closed (joinLines before)).carry line)
        ((scan .closed (joinLines before)).delta + (scan (scan .closed (joinLines before)).carry line).delta) line =
        goesOn before line := by
      rw [continues, goesOn, delta, carry]
    rw [assembleFrom, wholeLines]
    dsimp only
    rw [decided, ← delta, ← carry]
    split
    · rw [← ih (index + 1)]
      rfl
    · rfl

theorem lines_assemble_wholeLines (index : Int) (line : Text) (rest : List Text) :
    (assemble index line rest).lines = wholeLines [] line rest :=
  lines_assembleFrom_wholeLines index [] line rest

/-! ## The code of a statement -/

theorem mem_index_places_body_iff (source : LogicalStatement) :
    index ∈ (places source.body).map Place.index ↔ index < source.body.length ∧
      (lineClasses .closed source.lines)[(leadingBlanks source.code).length + index]? = some .code := by
  obtain ⟨more, whole⟩ := code_prefix_text source
  have blanks : Mode.code.run (leadingBlanks source.code) = .code := by
    rw [show Mode.code = Reader.start.mode from rfl, ← Reader.mode_run,
      Reader.run_start_quiet fun c mem => isQuiet_of_isBlankChar (isBlankChar_of_mem_leadingBlanks mem)]
  have text : joinLines source.lines = leadingBlanks source.code ++ (source.body ++ more) := by
    rw [← List.append_assoc, LogicalStatement.body, leadingBlanks_append_trimLeft, whole]
    rfl
  have classes : lineClasses .closed source.lines = Mode.code.classes (leadingBlanks source.code) ++
      (Mode.code.classes source.body ++ (Mode.code.run source.body).classes more) := by
    rw [← classes_joinLines, text, Carry.mode, Mode.classes_append, blanks, Mode.classes_append]
  have here : (lineClasses .closed source.lines)[(leadingBlanks source.code).length + index]? =
      (Mode.code.classes source.body ++ (Mode.code.run source.body).classes more)[index]? := by
    rw [classes, List.getElem?_append_right (by simp)]
    simp
  rw [mem_index_places_iff, here]
  constructor
  · intro code
    have bound : index < source.body.length := by
      have := (List.getElem?_eq_some_iff.1 code).1
      simpa using this
    exact ⟨bound, by rwa [List.getElem?_append_left (by simpa using bound)]⟩
  · rintro ⟨bound, code⟩
    rwa [List.getElem?_append_left (by simpa using bound)] at code

/-- Reading over a line break is reading the two lines one after the other, the second from the string that the first
leaves open. So the lines that a statement takes are those that reading all of it at once decides on, and each of its
characters is code, or part of a string or of a comment, in both ways of reading, for the recognisers too. -/
theorem scan_composes :
    (∀ (carry : Carry) (first last : Text),
      (scan carry (first ++ '\n' :: last)).delta =
          (scan carry first).delta + (scan (scan carry first).carry last).delta ∧
        (scan carry (first ++ '\n' :: last)).carry = (scan (scan carry first).carry last).carry ∧
        (scan carry (first ++ '\n' :: last)).comment =
          (scan carry first).comment.or
            ((scan (scan carry first).carry last).comment.map (· + (first.length + 1)))) ∧
      ∀ (index : Int) (line : Text) (rest : List Text),
        (assemble index line rest).lines = wholeLines [] line rest ∧
          Mode.code.classes (assemble index line rest).text = lineClasses .closed (assemble index line rest).lines ∧
          ∀ place : Nat, place ∈ (places (assemble index line rest).body).map Place.index ↔
            place < (assemble index line rest).body.length ∧
              (lineClasses .closed (assemble index line rest).lines)[
                (leadingBlanks (assemble index line rest).code).length + place]? = some .code :=
  ⟨fun carry first last =>
      ⟨delta_scan_newline carry first last, carry_scan_newline carry first last, comment_scan_newline carry first last⟩,
    fun index line rest =>
      ⟨lines_assemble_wholeLines index line rest, classes_joinLines .closed _, fun _ => mem_index_places_body_iff _⟩⟩

end LineProbe
