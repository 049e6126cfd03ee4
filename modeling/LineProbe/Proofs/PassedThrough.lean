import LineProbe.Proofs.Loops

/-!
# Codes that are passed through

A `raise`, a `pass` and the like are passed through as they are, and no line is put in behind them.
-/

namespace LineProbe

open Text Instrument

namespace Construct

/-! ## Codes that are classified late -/

theorem classify_of_late (early : early? code = none) (last : endsWithChar code ':' = false) :
    classify code = .ok (((inlineCompound? code).or (ignorable? code)).getD .plain) := by
  have unblocked : blockHeader? code = none := by simp [blockHeader?, last]
  rw [classify_eq, early, defHeader?, defParts?_of_not_colon last, late?, unblocked, Option.none_or]
  rfl

theorem early?_ne_ignorable : early? code ≠ some (.ignorable keyword) := by
  intro found
  simp only [early?, Option.or_eq_some_iff] at found
  rcases found with (((((h | ⟨-, h⟩) | ⟨-, h⟩) | ⟨-, h⟩) | ⟨-, h⟩) | ⟨-, h⟩) | ⟨-, h | ⟨-, h⟩⟩
  · cases (decorator?_iff.1 h).2
  · obtain ⟨_, _, _, _, -, -, -, -, same⟩ := augmented?_iff.1 h
    cases same
  · obtain ⟨_, _, -, -, -, same⟩ := assignment?_iff.1 h
    cases same
  · obtain ⟨_, _, _, -, -, -, -, same⟩ := annotated?_iff.1 h
    cases same
  · cases (annotationOnly?_iff.1 h).2.2.2
  · obtain ⟨_, -, -, -, -, same⟩ := print?_iff.1 h
    cases same
  · obtain ⟨_, -, -, -, -, -, same⟩ := forHeader?_iff.1 h
    cases same
  · cases (returning?_iff.1 h).2

theorem ignorable_of_classify (h : classify code = .ok (.ignorable keyword)) :
    early? code = none ∧ endsWithChar code ':' = false ∧ inlineCompound? code = none ∧
      firstWord code ∈ ignorableKeywords := by
  have early : early? code = none := by
    rw [classify_eq] at h
    split at h
    · next found =>
      cases h
      exact absurd found early?_ne_ignorable
    · assumption
  cases classify_ok h with
  | ignorable last word =>
    refine ⟨early, last, ?_, by simpa using word⟩
    cases inline : inlineCompound? code with
    | none => rfl
    | some construct =>
      obtain ⟨_, -, -, -, rfl⟩ := inlineCompound?_iff.1 inline
      rw [classify_of_late early last, inline] at h
      cases h

theorem firstWord_of_print? (h : print? code = some construct) : firstWord code = "print" := by
  obtain ⟨_, starts, paren, -, -, -⟩ := print?_iff.1 h
  obtain ⟨tail, rfl⟩ := startsWith_eq_true starts
  rw [show ("print".toList ++ tail).drop 5 = tail from List.drop_left' rfl] at paren
  rw [firstWord, nameAtStart_append]
  · decide
  · rintro c first
    cases tail with
    | nil => cases first
    | cons d tail =>
      obtain rfl : d = c := Option.some.inj first
      by_cases blank : isBlankChar d
      · exact isWordChar_of_isBlankChar blank
      · rw [trimLeft_of_head (by rintro _ ⟨⟩; simpa using blank)] at paren
        cases paren
        decide

section Swapped

theorem decorator?_swapped (h : Swapped Operand false .code code code') (found : (decorator? code).isSome) :
    (decorator? code').isSome := by
  obtain ⟨construct, found⟩ := Option.isSome_iff_exists.1 found
  have mark := (decorator?_iff.1 found).1
  rw [h.head?_eq_some_iff (show isTargetChar '@' = false by decide) (by decide)] at mark
  exact Option.isSome_iff_exists.2 ⟨_, decorator?_iff.2 ⟨mark, rfl⟩⟩

theorem forHeader?_swapped (h : Swapped Operand false .code code code') (found : (forHeader? code).isSome) :
    (forHeader? code').isSome := by
  obtain ⟨construct, found⟩ := Option.isSome_iff_exists.1 found
  obtain ⟨_, -, -, -, -, -, rfl⟩ := forHeader?_iff.1 found
  obtain ⟨part, body, shape, -, -⟩ := forHeader?_iff_shape.1 found
  obtain ⟨part', body', shape'⟩ := loopShape_swapped h shape
  exact Option.isSome_iff_exists.2 ⟨_, forHeader?_iff_shape.2 ⟨part', body', shape', rfl, rfl⟩⟩

theorem returning?_swapped (h : Swapped Operand false .code code code') (found : (returning? code).isSome) :
    (returning? code').isSome := by
  obtain ⟨construct, found⟩ := Option.isSome_iff_exists.1 found
  have word := h.firstWord_eq (returning?_iff.1 found).1 (by decide)
  exact Option.isSome_iff_exists.2 ⟨_, returning?_iff.2 ⟨word, rfl⟩⟩

theorem inlineCompound?_swapped (h : Swapped Operand false .code code code') (found : (inlineCompound? code).isSome) :
    (inlineCompound? code').isSome := by
  obtain ⟨construct, found⟩ := Option.isSome_iff_exists.1 found
  obtain ⟨colon, -, -, -, rfl⟩ := inlineCompound?_iff.1 found
  obtain ⟨head, body, shape, -⟩ := inlineCompound?_iff_shape.1 found
  obtain ⟨head', body', shape', -, -⟩ := inlineShape_swapped h shape
  exact Option.isSome_iff_exists.2 ⟨_, inlineCompound?_iff_shape.2 ⟨head', body', shape', rfl⟩⟩

theorem early?_swapped (h : Swapped Operand false .code code code') (word : firstWord code' ≠ "print")
    (early : early? code' = none) : early? code = none := by
  simp only [early?, Option.or_eq_none_iff] at early ⊢
  obtain ⟨⟨⟨⟨⟨⟨decorator, augmented⟩, assignment⟩, annotated⟩, declared⟩, -⟩, loop, returning⟩ := early
  have carried {recognizer : Text → Option Construct} (none_ : recognizer code' = none)
      (some_ : (recognizer code).isSome → (recognizer code').isSome) : recognizer code = none := by
    by_contra found
    have := some_ (Option.isSome_iff_ne_none.2 found)
    rw [none_] at this
    cases this
  refine ⟨⟨⟨⟨⟨⟨?_, ?_⟩, ?_⟩, ?_⟩, ?_⟩, ?_⟩, ?_, ?_⟩
  · exact carried decorator (decorator?_swapped h)
  · exact carried augmented (augmented?_swapped h)
  · exact carried assignment (assignment?_swapped h)
  · exact carried annotated (annotated?_swapped h)
  · exact carried declared (annotationOnly?_swapped h)
  · by_contra found
    obtain ⟨construct, found⟩ := Option.ne_none_iff_exists'.1 found
    exact word (h.firstWord_eq (firstWord_of_print? found) (by decide))
  · exact carried loop (forHeader?_swapped h)
  · exact carried returning (returning?_swapped h)

end Swapped

end Construct

namespace Instrument

open Construct

def passesThrough (code : Text) : Bool :=
  match _h : classify code with
  | .ok (.ignorable _) => true
  | .ok (.inlineCompound colon) => passesThrough (trimLeft (code.drop (colon + 1)))
  | _ => false
termination_by code.length
decreasing_by exact length_trimLeft_drop_lt _h

theorem passesThrough_ignorable (h : classify code = .ok (.ignorable keyword)) : passesThrough code := by
  rw [passesThrough]
  split <;> simp_all

theorem passesThrough_inline (h : classify code = .ok (.inlineCompound colon)) :
    passesThrough code = passesThrough (trimLeft (code.drop (colon + 1))) := by
  rw [passesThrough]
  split <;> simp_all

theorem passesThrough_cases (h : passesThrough code) :
    (∃ keyword, classify code = .ok (.ignorable keyword)) ∨
      ∃ colon, classify code = .ok (.inlineCompound colon) ∧ passesThrough (trimLeft (code.drop (colon + 1))) := by
  rw [passesThrough] at h
  split at h
  · next keyword found => exact .inl ⟨keyword, found⟩
  · next colon found => exact .inr ⟨colon, found, h⟩
  · cases h

theorem passesThrough_swapped (h : Swapped Operand false .code code code') (through : passesThrough code') :
    passesThrough code := by
  induction size : code'.length using Nat.strongRecOn generalizing code code' with
  | ind size_ ih =>
    subst size
    have last : endsWithChar code ':' = endsWithChar code' ':' := h.endsWithChar (fun _ => Operand.getLast?) (by decide)
    rcases passesThrough_cases through with ⟨keyword, found⟩ | ⟨colon, found, inner⟩
    · obtain ⟨early, unclosed, inline, word⟩ := ignorable_of_classify found
      have apart : ∀ word ∈ ignorableKeywords, word ≠ "print" ∧ word ∉ operandWords := by decide +kernel
      have same := h.symm.firstWord_eq rfl (apart _ word).2
      have inline : inlineCompound? code = none := by
        by_contra found
        have found' := inlineCompound?_swapped h (Option.isSome_iff_ne_none.2 found)
        rw [inline] at found'
        cases found'
      have outer : classify code = .ok (.ignorable (firstWord code)) := by
        rw [classify_of_late (early?_swapped h (apart _ word).1 early) (last.trans unclosed), inline, ignorable?, same,
          if_pos (by simpa using word)]
        rfl
      exact passesThrough_ignorable outer
    · cases classify_ok found with
      | inlineCompound early unclosed inline =>
        obtain ⟨head', body', shape', rfl⟩ := inlineCompound?_iff_shape.1 inline
        obtain ⟨head, body, shape, -, bodies⟩ := inlineShape_swapped h.symm shape'
        have apart : ∀ word ∈ compoundKeywords, word ≠ "print" := by decide +kernel
        have word := apart _ (by simpa using shape'.starts)
        have outer : classify code = .ok (.inlineCompound head.length) := by
          rw [classify_of_late (early?_swapped h word early) (last.trans unclosed),
            inlineCompound?_iff_shape.2 ⟨head, body, shape, rfl⟩]
          rfl
        rw [passesThrough_inline outer, shape.drop]
        have shorter := length_trimLeft_drop_lt found
        rw [shape'.drop] at inner shorter
        exact ih _ shorter bodies.symm.trimLeft inner rfl

end Instrument

end LineProbe
