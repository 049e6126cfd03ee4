import LineProbe.Proofs.Replacement
import LineProbe.Proofs.Standing

/-!
# The loop headers of a code

A code holds a loop header if it is one, or if it is an inline compound with one before or behind its colon.
-/

namespace LineProbe

open Text

/-! ## White space before swapped codes -/

theorem Operand.trimLeft (h : Operand text) (rest : Text) :
    ∃ first, trimLeft (text ++ rest) = first ++ rest ∧ Operand first := by
  cases h with
  | @intro name blanks inner close named blank closed closes =>
    cases name with
    | nil =>
      refine ⟨[] ++ ([] ++ '(' :: (inner ++ [close])), ?_, .intro (.inl rfl) (by simp) closed closes⟩
      rw [List.nil_append, List.append_assoc, trimLeft_append_of_blank blank]
      rfl
    | cons c name =>
      have named : c :: name ∈ blockingNames := named.resolve_left (by simp)
      have notBlank : isBlankChar c = false := by
        by_contra blank
        have joined := joins_of_mem_blockingNames named List.mem_cons_self
        rw [joins_of_isBlankChar (by simpa using blank)] at joined
        cases joined
      refine ⟨_, ?_, .intro (.inr named) blank closed closes⟩
      exact trimLeft_of_head (by rintro _ ⟨⟩; exact notBlank)

theorem Swapped.trimLeft (h : Swapped Operand false .code text text') :
    Swapped Operand false .code (Text.trimLeft text) (Text.trimLeft text') := by
  generalize joined : false = j at h
  generalize mode : Mode.code = m at h
  induction h with
  | nil => exact .nil
  | @same _ _ c rest rest' later ih =>
    subst joined mode
    by_cases blank : isBlankChar c
    · have apart := joins_of_isBlankChar blank
      have step : Mode.code.next c = .code :=
        Mode.next_of_readsCode (Mode.readsCode_of_settled rfl (by
          refine ⟨?_, ?_, ?_⟩ <;>
          · rintro rfl
            exact absurd blank (by decide)))
      have skip (text : Text) : Text.trimLeft (c :: text) = Text.trimLeft text := by
        rw [Text.trimLeft, List.dropWhile_cons_of_pos blank, Text.trimLeft]
      rw [skip, skip]
      have later := ih apart.symm step.symm
      rwa [apart, step] at later
    · have keep (text : Text) : Text.trimLeft (c :: text) = c :: text :=
        trimLeft_of_head (by rintro _ ⟨⟩; simpa using blank)
      rw [keep, keep]
      exact .same later
  | @operand _ _ _ rest rest' settled old new later _ =>
    obtain ⟨first, trimmed, operand⟩ := old.trimLeft rest
    obtain ⟨first', trimmed', operand'⟩ := new.trimLeft rest'
    rw [trimmed, trimmed']
    exact .operand settled operand operand' later

theorem Swapped.append (h : Swapped New joined mode text text') (tail : Text) :
    Swapped New joined mode (text ++ tail) (text' ++ tail) := by
  induction h with
  | nil => exact .refl ..
  | same _ ih => exact .same ih
  | operand settled old new _ ih =>
    rw [List.append_assoc, List.append_assoc]
    exact .operand settled old new ih

namespace Construct

/-! ## Recognising loops and inline compounds -/

theorem LoopShape.firstWord (shape : LoopShape code part body) : firstWord code = "for" := by
  obtain ⟨blank, rest, starts, white⟩ := shape.starts
  rw [starts, Construct.firstWord, show 'f' :: 'o' :: 'r' :: blank :: rest = "for".toList ++ blank :: rest from rfl,
    nameAtStart_append]
  · decide
  · rintro c ⟨⟩
    exact isWordChar_of_isBlankChar white

theorem mayAssign_of_keyword (h : Signature.keywords.contains (firstWord code)) : mayAssign code = false := by
  rw [mayAssign, h]
  rfl

theorem assigning_of_not_mayAssign (h : mayAssign code = false) :
    augmented? code = none ∧ assignment? code = none ∧ annotated? code = none := by
  refine ⟨?_, ?_, ?_⟩ <;> rw [Option.eq_none_iff_forall_ne_some] <;> intro construct found
  · obtain ⟨_, _, _, _, -, -, -, may, -⟩ := augmented?_iff.1 found
    simp [h] at may
  · obtain ⟨_, _, -, -, may, -⟩ := assignment?_iff.1 found
    simp [h] at may
  · obtain ⟨_, _, _, -, -, -, may, -⟩ := annotated?_iff.1 found
    simp [h] at may

theorem LoopShape.classify (shape : LoopShape code part body) :
    ∃ head iterable, classify code = .ok (.forHeader head iterable) := by
  have keyword : Signature.keywords.contains (Construct.firstWord code) := by
    rw [shape.firstWord]
    decide +kernel
  obtain ⟨blank, rest, starts, -⟩ := shape.starts
  obtain ⟨augmented, assignment, annotated⟩ := assigning_of_not_mayAssign (mayAssign_of_keyword keyword)
  have found := forHeader?_iff_shape.2 ⟨part, body, shape, rfl, rfl⟩
  have decorator : decorator? code = none := by simp [decorator?, starts]
  have declared : annotationOnly? code = none := by
    rw [Option.eq_none_iff_forall_ne_some]
    intro construct found
    obtain ⟨-, other, -⟩ := annotationOnly?_iff.1 found
    rw [keyword] at other
    cases other
  have printed : print? code = none := by
    rw [Option.eq_none_iff_forall_ne_some]
    intro construct found
    obtain ⟨_, other, -⟩ := print?_iff.1 found
    rw [starts] at other
    cases other
  refine ⟨part ++ "in ".toList, trim body, ?_⟩
  rw [classify_eq, early?, decorator, augmented, assignment, annotated, declared, printed, found]
  rfl

theorem forHeader?_of_not_colon (h : endsWithChar code ':' = false) : forHeader? code = none := by
  rw [Option.eq_none_iff_forall_ne_some]
  intro construct found
  obtain ⟨_, -, -, colon, -⟩ := forHeader?_iff.1 found
  rw [h] at colon
  cases colon

theorem defHeader?_of_not_colon (h : endsWithChar code ':' = false) : defHeader? code = .ok none := by
  rw [defHeader?, defParts?_of_not_colon h]

theorem InlineShape.classify (shape : InlineShape code head body) (last : endsWithChar code ':' = false)
    (augmented : augmented? code = none) (assignment : assignment? code = none) (annotated : annotated? code = none)
    (declared : annotationOnly? code = none) : classify code = .ok (.inlineCompound head.length) := by
  have mem : Construct.firstWord code ∈ compoundKeywords := by simpa using shape.starts
  have decorator : decorator? code = none := by
    rw [Option.eq_none_iff_forall_ne_some]
    intro construct found
    obtain ⟨at_, -⟩ := decorator?_iff.1 found
    rw [Construct.firstWord, nameAtStart_of_head (by rw [at_]; rintro _ ⟨⟩; decide)] at mem
    exact absurd mem (by decide)
  have printed : print? code = none := by
    rw [Option.eq_none_iff_forall_ne_some]
    intro construct found
    obtain ⟨_, starts, -⟩ := print?_iff.1 found
    obtain ⟨rest, rfl⟩ := startsWith_eq_true starts
    have initial : ∀ word ∈ compoundKeywords, word.head? ≠ some 'p' := by decide
    exact initial _ mem rfl
  have returned : returning? code = none := by
    rw [returning?, if_neg]
    intro same
    rw [same] at mem
    exact absurd mem (by decide +kernel)
  have found := inlineCompound?_iff_shape.2 ⟨head, body, shape, rfl⟩
  rw [classify_eq, early?, decorator, augmented, assignment, annotated, declared, printed, forHeader?_of_not_colon last, returned,
    defHeader?_of_not_colon last, late?, blockHeader?, last, found]
  rfl

/-! ## The loop headers of a code -/

def isLoop (code : Text) : Bool :=
  match Construct.classify code with
  | .ok (.forHeader ..) => true
  | _ => false

theorem isLoop_iff : isLoop code ↔ ∃ part body, LoopShape code part body := by
  constructor
  · intro h
    unfold isLoop at h
    split at h
    · next found =>
      cases classify_ok found with
      | forHeader found =>
        obtain ⟨part, body, shape, -, -⟩ := forHeader?_iff_shape.1 found
        exact ⟨part, body, shape⟩
    · cases h
  · rintro ⟨part, body, shape⟩
    obtain ⟨head, iterable, found⟩ := shape.classify
    rw [isLoop, found]

theorem length_trimLeft_drop_lt (h : Construct.classify code = .ok (.inlineCompound colon)) :
    (trimLeft (code.drop (colon + 1))).length < code.length := by
  have nonempty : code ≠ [] := by
    rintro rfl
    cases h
  have pos := List.length_pos_iff.2 nonempty
  have le := length_trimLeft_le (code.drop (colon + 1))
  rw [List.length_drop] at le
  omega

def loopHeaders (code : Text) : List Text :=
  match _h : Construct.classify code with
  | .ok (.forHeader ..) => [code]
  | .ok (.inlineCompound colon) =>
    [code.take (colon + 1)].filter isLoop ++ loopHeaders (trimLeft (code.drop (colon + 1)))
  | _ => []
termination_by code.length
decreasing_by exact length_trimLeft_drop_lt _h

theorem loopHeaders_loop (shape : LoopShape code part body) : loopHeaders code = [code] := by
  obtain ⟨head, iterable, found⟩ := shape.classify
  rw [loopHeaders]
  split
  · rfl
  · next other =>
    rw [found] at other
    cases other
  · next other _ => exact absurd found (other _ _)

theorem loopHeaders_inline (shape : InlineShape code head body)
    (found : Construct.classify code = .ok (.inlineCompound head.length)) :
    loopHeaders code = [head ++ [':']].filter isLoop ++ loopHeaders (trimLeft body) := by
  rw [loopHeaders]
  split
  · next other =>
    rw [found] at other
    cases other
  · next same =>
    rw [found] at same
    cases same
    rw [shape.take, shape.drop]
  · next other => exact absurd found (other _)

theorem mem_loopHeaders (h : loop ∈ loopHeaders code) :
    isLoop code ∧ loop = code ∨ ∃ head body, InlineShape code head body ∧ endsWithChar code ':' = false ∧
      early? code = none ∧ (isLoop (head ++ [':']) ∧ loop = head ++ [':'] ∨ loop ∈ loopHeaders (trimLeft body)) := by
  rw [loopHeaders] at h
  split at h
  · next found =>
    rw [List.mem_singleton] at h
    exact .inl ⟨by rw [isLoop, found], h⟩
  · next found =>
    cases classify_ok found with
    | inlineCompound early last inline =>
      obtain ⟨head, body, shape, rfl⟩ := inlineCompound?_iff_shape.1 inline
      rw [shape.take, shape.drop, List.mem_append, List.mem_filter, List.mem_singleton] at h
      refine .inr ⟨head, body, shape, last, early, ?_⟩
      rcases h with ⟨rfl, isLoop⟩ | later
      · exact .inl ⟨isLoop, rfl⟩
      · exact .inr later
  · cases h

theorem standing_of_mem_loopHeaders (h : Standing code) (mem : loop ∈ loopHeaders code) : Standing loop := by
  induction size : code.length using Nat.strongRecOn generalizing code with
  | ind size_ ih =>
    subst size
    rcases mem_loopHeaders mem with ⟨-, rfl⟩ | ⟨head, body, shape, -, -, ⟨-, rfl⟩ | later⟩
    · exact h
    · exact shape.standing_head h
    · refine ih _ ?_ (shape.standing_body h) later rfl
      have le := length_trimLeft_le body
      rw [shape.whole, List.length_append, List.length_cons]
      omega

theorem isLoop_swapped (h : Swapped Operand false .code code code') (loop : isLoop code') : isLoop code := by
  obtain ⟨part, body, shape⟩ := isLoop_iff.1 loop
  exact isLoop_iff.2 (loopShape_swapped h.symm shape)

theorem classify_inline_swapped (h : Swapped Operand false .code code code') (shape' : InlineShape code' head' body')
    (last' : endsWithChar code' ':' = false) (early' : early? code' = none) :
    ∃ head body, InlineShape code head body ∧ Construct.classify code = .ok (.inlineCompound head.length) ∧
      Swapped Operand false .code head head' ∧ Swapped Operand false .code body body' := by
  obtain ⟨head, body, shape, heads, bodies⟩ := inlineShape_swapped h.symm shape'
  have none_ {recognise : Text → Option Construct} (none' : recognise code' = none)
      (swapped : (recognise code).isSome → (recognise code').isSome) : recognise code = none := by
    by_contra found
    have := swapped (Option.isSome_iff_ne_none.2 found)
    rw [none'] at this
    cases this
  simp only [early?, Option.or_eq_none_iff] at early'
  obtain ⟨⟨⟨⟨⟨⟨-, augmented⟩, assignment⟩, annotated⟩, declared⟩, -⟩, -⟩ := early'
  refine ⟨head, body, shape, ?_, heads.symm, bodies.symm⟩
  exact shape.classify (by rw [h.endsWithChar (fun _ => Operand.getLast?) (by decide), last'])
    (none_ augmented (augmented?_swapped h))
    (none_ assignment (assignment?_swapped h)) (none_ annotated (annotated?_swapped h))
    (none_ declared (annotationOnly?_swapped h))

theorem loopHeaders_swapped (h : Swapped Operand false .code code code') (mem' : loop' ∈ loopHeaders code') :
    ∃ loop ∈ loopHeaders code, Swapped Operand false .code loop loop' := by
  induction size : code'.length using Nat.strongRecOn generalizing code code' with
  | ind size_ ih =>
    subst size
    rcases mem_loopHeaders mem' with ⟨isLoop', rfl⟩ | ⟨head', body', shape', last', early', inside'⟩
    · obtain ⟨part, body, shape⟩ := isLoop_iff.1 (isLoop_swapped h isLoop')
      exact ⟨code, by rw [loopHeaders_loop shape]; exact List.mem_singleton_self _, h⟩
    · obtain ⟨head, body, shape, found, heads, bodies⟩ := classify_inline_swapped h shape' last' early'
      rw [loopHeaders_inline shape found]
      rcases inside' with ⟨isLoop', rfl⟩ | later'
      · have swapped := heads.append [':']
        refine ⟨head ++ [':'], List.mem_append_left _ ?_, swapped⟩
        rw [List.mem_filter]
        exact ⟨List.mem_singleton_self _, isLoop_swapped swapped isLoop'⟩
      · have shorter : (trimLeft body').length < code'.length := by
          have le := length_trimLeft_le body'
          rw [shape'.whole, List.length_append, List.length_cons]
          omega
        obtain ⟨loop, mem, swapped⟩ := ih _ shorter bodies.trimLeft later' rfl
        exact ⟨loop, List.mem_append_right _ mem, swapped⟩

end Construct

/-! ## Loop headers that break off -/

theorem mem_places {before rest : Text} {c : Char} (reads : (Mode.code.run before).readsCode c) :
    ∃ place ∈ places (before ++ c :: rest), place.char = c := by
  rw [places, Mode.places_append, Mode.places_cons, if_pos reads]
  exact ⟨_, List.mem_append_right _ List.mem_cons_self, rfl⟩

theorem not_breaksOff (settles : Settles loop) (free : ∀ place ∈ places loop, place.char ≠ '\\') :
    ¬ BreaksOff loop := by
  rintro ⟨front, blanks, rfl, blank⟩
  rw [show front ++ '\\' :: (blanks ++ [':']) = (front ++ ['\\'] ++ blanks) ++ [':'] by simp] at settles
  have settled := (settles.before_colon.before_blanks blank).settled
  rw [Reader.run_append, Reader.run_cons, Reader.run_nil, Reader.next] at settled
  have before := Mode.settled_of_next settled (by decide) (by decide) (by decide)
  rw [Reader.mode_run] at before
  obtain ⟨place, mem, same⟩ := @mem_places front (blanks ++ [':']) '\\' (Mode.readsCode_of_settled before (by decide))
  exact free place mem same

theorem not_breaksOff_of_swapped (h : Swapped Operand false .code loop loop') (unbroken : ¬ BreaksOff loop) :
    ¬ BreaksOff loop' := by
  rintro ⟨front, blanks, rfl, blank⟩
  have other : ∀ c ∈ '\\' :: (blanks ++ [':']), isCloser c = false := by
    intro c mem
    by_contra closes
    simp only [Bool.not_eq_false, isCloser, Bool.or_eq_true, beq_iff_eq] at closes
    simp only [List.mem_cons, List.mem_append, List.not_mem_nil, or_false] at mem
    rcases closes with (rfl | rfl) | rfl <;> simp at mem <;> exact absurd (blank _ mem) (by decide)
  obtain ⟨before, rfl, -⟩ := h.symm.append_right other
  exact unbroken ⟨before, blanks, rfl, blank⟩

end LineProbe
