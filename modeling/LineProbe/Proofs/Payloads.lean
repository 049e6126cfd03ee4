import LineProbe.Proofs.Fusion
import LineProbe.Server.View

/-!
# Payloads under the pointer

A result holds its payload on one line: a line end is written as a backslash and `n`, and every other character as
itself.
-/

namespace LineProbe

/-! ## Replacing two characters by one -/

namespace Text

/-- The text with each occurrence of two characters in a row, from the left on, replaced by one character. -/
def replacePair (first second new : Char) : Text → Text
  | [] => []
  | [c] => [c]
  | c :: d :: rest =>
    if c = first ∧ d = second then new :: replacePair first second new rest
    else c :: replacePair first second new (d :: rest)

theorem replacePair_cons (h : c = first → rest.head? ≠ some second) :
    replacePair first second new (c :: rest) = c :: replacePair first second new rest := by
  cases rest with
  | nil => rfl
  | cons d rest =>
    rw [replacePair, if_neg]
    rintro ⟨here, rfl⟩
    exact h here rfl

theorem length_replacePair_le (text : Text) : (replacePair first second new text).length ≤ text.length := by
  fun_induction replacePair first second new text with
  | case1 => exact Nat.le_refl _
  | case2 => exact Nat.le_refl _
  | case3 c d rest _ ih => simp only [List.length_cons]; omega
  | case4 c d rest _ ih => simp only [List.length_cons] at ih ⊢; omega

theorem pair_infix_cons :
    [first, second] <:+: c :: rest ↔ c = first ∧ rest.head? = some second ∨ [first, second] <:+: rest := by
  rw [List.infix_cons_iff, List.cons_prefix_cons, eq_comm]
  cases rest with
  | nil => simp
  | cons d rest => simp [eq_comm]

theorem replacePair_eq_self_iff : replacePair first second new text = text ↔ ¬ [first, second] <:+: text := by
  fun_induction replacePair first second new text with
  | case1 => simp
  | case2 c => simp [pair_infix_cons]
  | case3 c d rest here ih =>
    obtain ⟨rfl, rfl⟩ := here
    refine iff_of_false (fun same => ?_) (fun absent => absent (pair_infix_cons.2 (.inl ⟨rfl, rfl⟩)))
    -- The text has become shorter.
    have shorter : (replacePair c d new rest).length ≤ rest.length := length_replacePair_le rest
    have length := congrArg List.length same
    simp only [List.length_cons] at length
    omega
  | case4 c d rest other ih =>
    rw [List.cons.injEq, eq_self, true_and, ih, pair_infix_cons (c := c)]
    simp only [List.head?_cons, Option.some.injEq, other, false_or]

theorem head?_replacePair (notFirst : y ≠ first) (notNew : y ≠ new) (text : Text) :
    (replacePair first second new text).head? = some y ↔ text.head? = some y := by
  fun_cases replacePair first second new text with
  | case1 => rfl
  | case2 c => rfl
  | case3 c d rest here => simp [here.1, Ne.symm notFirst, Ne.symm notNew]
  | case4 c d rest other => rfl

theorem pair_infix_replacePair (x_notFirst : x ≠ first) (x_notSecond : x ≠ second) (x_notNew : x ≠ new)
    (y_notFirst : y ≠ first) (y_notNew : y ≠ new) (text : Text) :
    [x, y] <:+: replacePair first second new text ↔ [x, y] <:+: text := by
  fun_induction replacePair first second new text with
  | case1 => rfl
  | case2 c => rfl
  | case3 c d rest here ih =>
    obtain ⟨rfl, rfl⟩ := here
    simp only [pair_infix_cons, ih, Ne.symm x_notFirst, Ne.symm x_notSecond, Ne.symm x_notNew, false_and, false_or]
  | case4 c d rest other ih =>
    rw [pair_infix_cons, ih, head?_replacePair y_notFirst y_notNew, ← pair_infix_cons]

end Text

open Text

/-! ## Writing on one line and reading back -/

def escapeNewline (c : Char) : Text :=
  if c = '\n' then ['\\', 'n'] else [c]

theorem encodePayload_eq_flatMap (payload : Text) :
    encodePayload payload = (replacePair '\r' '\n' '\n' payload).flatMap escapeNewline := by
  fun_induction encodePayload payload with
  | case1 => rfl
  | case2 rest ih =>
    rw [replacePair, if_pos ⟨rfl, rfl⟩, List.flatMap_cons, ih]
    rfl
  | case3 rest _ ih =>
    rw [replacePair_cons (by simp), List.flatMap_cons, ih]
    rfl
  | case4 c rest notEnd notNewline ih =>
    rw [replacePair_cons, List.flatMap_cons, ih, escapeNewline, if_neg notNewline]
    · rfl
    · rintro rfl next
      obtain ⟨after, rfl⟩ := List.head?_eq_some_iff.1 next
      exact notEnd _ rfl rfl

theorem decodePayload_eq (text : Text) : decodePayload text = replacePair '\\' 'n' '\n' text := by
  fun_induction decodePayload text with
  | case1 => rfl
  | case2 rest ih => rw [replacePair, if_pos ⟨rfl, rfl⟩, ih]
  | case3 c rest other ih =>
    rw [replacePair_cons, ih]
    rintro rfl next
    obtain ⟨after, rfl⟩ := List.head?_eq_some_iff.1 next
    exact other _ rfl rfl

theorem head?_flatMap_escapeNewline {text : Text} (h : text.head? ≠ some 'n') :
    (text.flatMap escapeNewline).head? ≠ some 'n' := by
  cases text with
  | nil => simp
  | cons c rest =>
    rw [List.flatMap_cons, escapeNewline]
    split
    · simp
    · simpa using h

theorem replacePair_flatMap_cons (h : c = '\\' → rest.head? ≠ some 'n') :
    replacePair '\\' 'n' '\n' ((c :: rest).flatMap escapeNewline) =
      c :: replacePair '\\' 'n' '\n' (rest.flatMap escapeNewline) := by
  rw [List.flatMap_cons, escapeNewline]
  split
  · next newline =>
    rw [newline, List.cons_append, List.cons_append, replacePair, if_pos ⟨rfl, rfl⟩]
    rfl
  · exact replacePair_cons fun slash => head?_flatMap_escapeNewline (h slash)

theorem replacePair_flatMap_escapeNewline (text : Text) :
    replacePair '\\' 'n' '\n' (text.flatMap escapeNewline) = replacePair '\\' 'n' '\n' text := by
  fun_induction replacePair '\\' 'n' '\n' text with
  | case1 => rfl
  | case2 c => exact replacePair_flatMap_cons (by simp)
  | case3 c d rest here ih =>
    obtain ⟨rfl, rfl⟩ := here
    show replacePair '\\' 'n' '\n' ('\\' :: 'n' :: rest.flatMap escapeNewline) = _
    rw [replacePair, if_pos ⟨rfl, rfl⟩, ih]
  | case4 c d rest other ih =>
    rw [replacePair_flatMap_cons, ih]
    rintro rfl next
    exact other ⟨rfl, Option.some.inj next⟩

theorem decodePayload_encodePayload (payload : Text) :
    decodePayload (encodePayload payload) = replacePair '\\' 'n' '\n' (replacePair '\r' '\n' '\n' payload) := by
  rw [decodePayload_eq, encodePayload_eq_flatMap, replacePair_flatMap_escapeNewline]

theorem decodePayload_encodePayload_eq_iff :
    decodePayload (encodePayload payload) = replacePair '\r' '\n' '\n' payload ↔ ¬ ['\\', 'n'] <:+: payload := by
  rw [decodePayload_encodePayload, replacePair_eq_self_iff,
    pair_infix_replacePair (by decide) (by decide) (by decide) (by decide) (by decide)]

/-! ## The text under the pointer -/

theorem hover_append_cons {before : List LineResult} {result : LineResult}
    (unseen : ∀ other ∈ before, other.line = result.line → other.value = []) (filled : result.value ≠ [])
    (after : List LineResult) :
    View.hover (before ++ result :: after) result.line =
      some ((if result.isError then "error: ".toList else []) ++ decodePayload result.value) := by
  have skipped : before.find? (fun other => other.line = result.line && other.value ≠ []) = none := by
    rw [List.find?_eq_none]
    intro other mem
    simpa using unseen other mem
  rw [View.hover, List.find?_append, skipped, Option.none_or, List.find?_cons_of_pos (by simpa using filled)]
  rfl

/-- The text under the pointer is the payload with each CRLF and each backslash and `n` turned into a newline. So it
is the payload up to its line ends if and only if the payload has no backslash directly before an `n`. -/
theorem hover_encoded (payload : Text) (filled : payload ≠ []) (line : Int) (before after : List LineResult)
    (unseen : ∀ other ∈ before, other.line = line → other.value = []) :
    View.hover (before ++ ⟨line, encodePayload payload, false⟩ :: after) line =
        some (replacePair '\\' 'n' '\n' (replacePair '\r' '\n' '\n' payload)) ∧
      (View.hover (before ++ ⟨line, encodePayload payload, false⟩ :: after) line =
        some (replacePair '\r' '\n' '\n' payload) ↔ ¬ ['\\', 'n'] <:+: payload) := by
  have shown : View.hover (before ++ ⟨line, encodePayload payload, false⟩ :: after) line =
      some (decodePayload (encodePayload payload)) :=
    @hover_append_cons before ⟨line, encodePayload payload, false⟩ unseen (encodePayload_ne_nil filled) after
  rw [shown, Option.some.injEq, Option.some.injEq]
  exact ⟨decodePayload_encodePayload payload, decodePayload_encodePayload_eq_iff⟩

theorem hover_encoded_backslash :
    View.hover [⟨3, [], true⟩, ⟨1, "x".toList, false⟩, ⟨3, encodePayload ['a', '\\', '\r', '\n', 'n'], false⟩] 3 =
      some ['a', '\\', '\n', 'n'] :=
  (hover_encoded ['a', '\\', '\r', '\n', 'n'] (by decide) 3 [⟨3, [], true⟩, ⟨1, "x".toList, false⟩] [] (by decide)).2.2
    (by decide)

/-- A payload with a backslash directly before an `n` is shown with a newline in their place. -/
theorem hover_backslash_n :
    View.hover [⟨0, encodePayload ['a', '\\', 'n', 'b'], false⟩] 0 ≠
      some (replacePair '\r' '\n' '\n' ['a', '\\', 'n', 'b']) := by
  decide

end LineProbe
