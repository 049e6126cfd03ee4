import LineProbe.Proofs.Probe
import LineProbe.Proofs.Spans

/-!
# Codes with blocking calls replaced

Replacing the blocking calls of a code exchanges operands: `substituteBlocking_swapped`.
-/

namespace LineProbe

open Text

/-! ## Replacing blocking calls -/

theorem replaceSpans_swapped (values : ∀ site, New (value site)) (before text : Text) (site : Nat) :
    Swapped New (before.getLast?.any joins) (Mode.code.run before) text
      (replaceSpans (before ++ text) value before.length site (spansBehind before text)) :=
  (replaceSpans_exchanged value before text site).swapped values

theorem guardedValue_eq (number : Nat) (line limit : Int) (value : Text) :
    Probe.guardedValue (Probe.siteName number) line limit value =
      '(' :: ((Probe.guardCall (Probe.siteName number) line limit ++ (" or ".toList ++ '(' :: (value ++ [')']))) ++
        [')']) := by
  have enter : ("(" : String).toList = ['('] := by decide +kernel
  have between : (" or (" : String).toList = " or ".toList ++ ['('] := by decide +kernel
  have leave : ("))" : String).toList = [')', ')'] := by decide +kernel
  unfold Probe.guardedValue
  rw [enter, between, leave]
  simp only [List.append_assoc, List.cons_append, List.nil_append]

theorem enclosed_guardedValue (number : Nat) (line limit : Int) (value : Text) :
    Enclosed (Probe.guardedValue (Probe.siteName number) line limit value) := by
  rw [guardedValue_eq]
  exact .intro _

theorem bracketed_of_parenthesized (number : Nat) (line limit : Int) (closed : Closed ('(' :: (value ++ [')']))) :
    Bracketed (Probe.guardedValue (Probe.siteName number) line limit value) := by
  have guarded : Reader.start.Takes (Probe.guardCall (Probe.siteName number) line limit) Reader.start :=
    Reader.takes_guardCall (Int.le_refl 0) (by simp) (plain_cons.2 ⟨by decide, plain_ofNat number⟩) _ _
  have word : Reader.start.Takes " or ".toList Reader.start := Reader.takes_plain (Int.le_refl 0) (by decide)
  rw [guardedValue_eq]
  exact .intro ((closed.behind word).behind guarded)

theorem bracketed_guardedValue (number : Nat) (line limit : Int) (closed : Closed value) :
    Bracketed (Probe.guardedValue (Probe.siteName number) line limit value) :=
  bracketed_of_parenthesized number line limit (Settles.of_takes closed.bracketed rfl).toClosed

theorem substituteBlocking_enclosed (code : Text) (line : Int) (directives : Directives) (callLimit : Int) (site : Nat) :
    Swapped Enclosed false .code code (substituteBlocking code line directives callLimit site).1 :=
  replaceSpans_swapped (fun number => enclosed_guardedValue number line _ _) [] code site

theorem substituteBlocking_swapped (code : Text) (line : Int) (callLimit : Int) (site : Nat)
    (closed : Closed (mockValue directives)) :
    Swapped Bracketed false .code code (substituteBlocking code line directives callLimit site).1 :=
  replaceSpans_swapped (fun number => bracketed_guardedValue number line _ closed) [] code site

theorem closed_mockValue_none (h : directives.mock = none) : Closed (mockValue directives) := by
  rw [mockValue, h]
  exact ⟨⟨by decide, by decide, trivial⟩, rfl, rfl⟩

theorem newline_not_mem_substituteBlocking (line : Int) (callLimit : Int) (site : Nat)
    (value : '\n' ∉ mockValue directives) (oneLine : '\n' ∉ code) :
    '\n' ∉ (substituteBlocking code line directives callLimit site).1 := by
  have guarded (number : Nat) : '\n' ∉ Probe.guardedValue (Probe.siteName number) line
      (directives.effectiveLimit callLimit) (mockValue directives) := by
    have call : '\n' ∉ Probe.guardCall (Probe.siteName number) line (directives.effectiveLimit callLimit) :=
      (show Injection.Plain (.limitGuard number _) from trivial).newline_not_mem line
    rw [guardedValue_eq]
    simp only [List.mem_cons, List.mem_append, not_or]
    exact ⟨by decide, ⟨call, by decide, by decide, value, by decide⟩, by decide⟩
  have swapped : Swapped ('\n' ∉ ·) false .code code (substituteBlocking code line directives callLimit site).1 :=
    replaceSpans_swapped guarded [] code site
  exact swapped.not_mem (fun _ => id) oneLine

/-! ## Recognising assignments -/

namespace Construct

theorem findChar?_isNone (h : Swapped Operand false .code code code') (other : isTargetChar mark = false)
    (notParen : mark ≠ '(') (notCloser : isCloser mark = false) :
    (findChar? code mark).isNone = (findChar? code' mark).isNone := by
  rw [findChar?_eq (by simp), findChar?_eq (by simp)]
  have blind := blind_charTest other notParen notCloser
  rcases h.firstTop_code blind with ⟨none_, none_'⟩ | ⟨_, _, _, _, _, _, _, found, found', _⟩
  · rw [none_, none_']
  · rw [found, found']
    rfl

theorem mayAssign_eq (h : Swapped Operand false .code code code') (same : firstWord code = firstWord code') :
    mayAssign code = mayAssign code' := by
  rw [mayAssign, mayAssign, same, findChar?_isNone h (by decide) (by decide) (by decide)]

theorem exists_front (h : Swapped Operand false .code (front ++ mark :: rest) code') (plain : '(' ∉ front)
    (other : isTargetChar mark = false) (notParen : mark ≠ '(') :
    ∃ rest', code' = front ++ mark :: rest' ∧ (rest.head? = some '=' ↔ rest'.head? = some '=') := by
  obtain ⟨rest', whole, behind⟩ := h.front plain other notParen
  exact ⟨rest', whole, behind.head?_eq_some_iff (by decide) (by decide)⟩

def subject : Construct → List Text
  | .assignment target _ | .annotated target _ => [target]
  | .augmented target operator _ => [target, operator]
  | .defHeader name _ => [name]
  | _ => []

def Carried (recognizer : Text → Option Construct) (code code' : Text) : Prop :=
  ∀ construct, recognizer code = some construct →
    ∃ construct', recognizer code' = some construct' ∧ construct'.subject = construct.subject

theorem Carried.isSome (h : Carried recognizer code code') (found : (recognizer code).isSome) :
    (recognizer code').isSome := by
  obtain ⟨construct, found⟩ := Option.isSome_iff_exists.1 found
  obtain ⟨construct', found', -⟩ := h construct found
  exact Option.isSome_iff_exists.2 ⟨construct', found'⟩

theorem targetBefore_front (front between : Text) (mark : Char) (rest : Text) :
    targetBefore (front ++ mark :: rest) (between ++ mark :: rest) =
      (front.take (front.length - between.length)).filter (!isBlankChar ·) := by
  have index : indexOf (front ++ mark :: rest) (between ++ mark :: rest) = front.length - between.length := by
    simp only [indexOf, List.length_append]
    omega
  rw [targetBefore, index, List.take_append_of_le_length (Nat.sub_le _ _)]

theorem assignment?_carried (h : Swapped Operand false .code code code') : Carried assignment? code code' := by
  intro construct found
  have equalsSign : isTargetChar '=' = false := by decide
  obtain ⟨left, value, target, equals, may, rfl⟩ := assignment?_iff.1 found
  obtain ⟨trimmed, single⟩ := afterEquals?_iff.1 equals
  obtain ⟨front, rfl, targeted⟩ := targeted_of_afterTarget? target trimmed equalsSign
  obtain ⟨value', rfl, head⟩ := exists_front h targeted.paren_not_mem equalsSign (by decide)
  obtain ⟨between, blank, behind⟩ := targeted.found
  obtain rfl := Option.some.inj (target.symm.trans (behind value))
  rw [mayAssign_eq h (firstWord_front front equalsSign value value')] at may
  refine ⟨_, assignment?_iff.2 ⟨_, value', behind value', ?_, may, rfl⟩, ?_⟩
  · exact afterEquals?_iff.2 ⟨trimLeft_blanks_append blank equalsSign value', fun double => single (head.2 double)⟩
  · simp only [subject, targetBefore_front]

theorem assignment?_swapped (h : Swapped Operand false .code code code') (found : (assignment? code).isSome) :
    (assignment? code').isSome :=
  (assignment?_carried h).isSome found

theorem augmented?_carried (h : Swapped Operand false .code code code') : Carried augmented? code code' := by
  intro construct found
  have equalsSign : isTargetChar '=' = false := by decide
  obtain ⟨left, operator, behind, value, target, known, equals, may, rfl⟩ := augmented?_iff.1 found
  obtain ⟨rfl, single⟩ := afterEquals?_iff.1 equals
  obtain ⟨trimmed, nonempty, chars⟩ := operator?_spec known
  obtain ⟨mark, more, rfl⟩ := List.exists_cons_of_ne_nil nonempty
  have symbols : ∀ c ∈ "-+*/%@&|^<>".toList, isTargetChar c = false ∧ c ≠ '(' := by decide +kernel
  have symbol := symbols mark (by simpa using chars mark List.mem_cons_self)
  rw [List.cons_append] at trimmed
  obtain ⟨front, rfl, targeted⟩ := targeted_of_afterTarget? target trimmed symbol.1
  have plain : '(' ∉ front ++ mark :: more := by
    rw [List.mem_append, not_or]
    exact ⟨targeted.paren_not_mem, fun mem => (symbols '(' (by simpa using chars '(' mem)).2 rfl⟩
  have whole (value : Text) : front ++ mark :: (more ++ '=' :: value) = (front ++ mark :: more) ++ '=' :: value := by
    simp
  rw [whole] at h
  obtain ⟨value', rfl, head⟩ := exists_front h plain equalsSign (by decide)
  obtain ⟨between, blank, found'⟩ := targeted.found
  obtain rfl := Option.some.inj (target.symm.trans (found' _))
  rw [← whole, ← whole] at h
  rw [mayAssign_eq h (firstWord_front front symbol.1 _ _)] at may
  rw [← whole]
  have behind := trimLeft_blanks_append blank symbol.1 (more ++ '=' :: value')
  refine ⟨_, augmented?_iff.2 ⟨_, mark :: more, '=' :: value', value', found' _, ?_,
    afterEquals?_iff.2 ⟨rfl, fun double => single (head.2 double)⟩, may, rfl⟩, ?_⟩
  · rw [behind]
    exact operator?_behind known value'
  · simp only [subject, targetBefore_front]

theorem augmented?_swapped (h : Swapped Operand false .code code code') (found : (augmented? code).isSome) :
    (augmented? code').isSome :=
  (augmented?_carried h).isSome found

theorem afterAnnotationColon?_swapped (h : Swapped Operand false .code code code')
    (found : afterAnnotationColon? code = some (left, behind)) :
    ∃ front behind', code = front ++ ':' :: behind ∧ code' = front ++ ':' :: behind' ∧ Targeted front ':' ∧
      behind'.head? ≠ some '=' := by
  have colonSign : isTargetChar ':' = false := by decide
  obtain ⟨target, colon, single⟩ := afterAnnotationColon?_iff.1 found
  obtain ⟨front, rfl, targeted⟩ := targeted_of_afterTarget? target colon colonSign
  obtain ⟨behind', rfl, head⟩ := exists_front h targeted.paren_not_mem colonSign (by decide)
  exact ⟨front, behind', rfl, rfl, targeted, fun double => single (head.2 double)⟩

theorem Targeted.afterAnnotationColon? (h : Targeted front ':') :
    ∃ between, ∀ behind : Text, behind.head? ≠ some '=' →
      afterAnnotationColon? (front ++ ':' :: behind) = some (between ++ ':' :: behind, behind) := by
  obtain ⟨between, blank, found⟩ := h.found
  refine ⟨between, fun behind single => ?_⟩
  exact afterAnnotationColon?_iff.2 ⟨found _, trimLeft_blanks_append blank (by decide) _, single⟩

theorem annotationOnly?_swapped (h : Swapped Operand false .code code code') (found : (annotationOnly? code).isSome) :
    (annotationOnly? code').isSome := by
  obtain ⟨construct, found⟩ := Option.isSome_iff_exists.1 found
  obtain ⟨declared, word, last, -⟩ := annotationOnly?_iff.1 found
  obtain ⟨⟨left, behind⟩, declared⟩ := Option.isSome_iff_exists.1 declared
  obtain ⟨front, behind', rfl, rfl, targeted, single⟩ := afterAnnotationColon?_swapped h declared
  obtain ⟨between, declares⟩ := targeted.afterAnnotationColon?
  refine Option.isSome_iff_exists.2 ⟨_, annotationOnly?_iff.2 ⟨by rw [declares _ single]; rfl, ?_, ?_, rfl⟩⟩
  · rwa [firstWord_front front (by decide) behind' behind]
  · rwa [← h.endsWithChar (fun _ => Operand.getLast?) (by decide)]

theorem comparison_eq (part rest : Text) :
    ((part ++ '=' :: rest)[part.length + 1]? == some '=' ||
      (part ++ '=' :: rest)[part.length - 1]?.any ("<>!".toList.contains ·)) =
      (rest.head? == some '=' || part.getLast?.any ("<>!".toList.contains ·)) := by
  have behind : (part ++ '=' :: rest)[part.length + 1]? = rest.head? := by
    rw [List.getElem?_append_right (by omega), Nat.add_sub_cancel_left, List.getElem?_cons_succ, List.head?_eq_getElem?]
  have before : (part ++ '=' :: rest)[part.length - 1]?.any ("<>!".toList.contains ·) =
      part.getLast?.any ("<>!".toList.contains ·) := by
    cases part with
    | nil => rfl
    | cons c part => rw [List.getElem?_append_left (by simp), List.getLast?_eq_getElem?]
  rw [behind, before]

theorem comparison_swapped
    (before : Swapped Operand false .code part part') (after : Swapped Operand joined .code rest rest')
    (free : ((part ++ '=' :: rest)[part.length + 1]? == some '=' ||
      (part ++ '=' :: rest)[part.length - 1]?.any ("<>!".toList.contains ·)) = false) :
    ((part' ++ '=' :: rest')[part'.length + 1]? == some '=' ||
      (part' ++ '=' :: rest')[part'.length - 1]?.any ("<>!".toList.contains ·)) = false := by
  rw [comparison_eq] at free ⊢
  simp only [Bool.or_eq_false_iff, beq_eq_false_iff_ne, ne_eq] at free ⊢
  refine ⟨fun double => free.1 ((after.head?_eq_some_iff (by decide) (by decide)).2 double), ?_⟩
  rcases before.getLast? (fun _ => Operand.getLast?) with same | ⟨c, c', last, last', closes, closes'⟩
  · rw [← same]
    exact free.2
  · rw [last']
    simp only [isCloser, Bool.or_eq_true, beq_iff_eq] at closes'
    rcases closes' with (rfl | rfl) | rfl <;> decide +kernel

theorem annotated?_carried (h : Swapped Operand false .code code code') : Carried annotated? code code' := by
  intro construct found
  obtain ⟨left, behind, equals, declared, located, free, may, rfl⟩ := annotated?_iff.1 found
  obtain ⟨front, behind', rfl, rfl, targeted, single⟩ := afterAnnotationColon?_swapped h declared
  obtain ⟨between, declares⟩ := targeted.afterAnnotationColon?
  have same := declares behind (afterAnnotationColon?_iff.1 declared).2.2
  obtain rfl := congrArg Prod.fst (Option.some.inj (declared.symm.trans same))
  have start (behind : Text) : '=' ∉ (front ++ ':' :: behind).take (indexOf (front ++ ':' :: behind) behind) := by
    have cut : (front ++ ':' :: behind).take (indexOf (front ++ ':' :: behind) behind) = front ++ [':'] := by
      rw [indexOf, show front ++ ':' :: behind = (front ++ [':']) ++ behind by simp, List.length_append,
        Nat.add_sub_cancel, List.take_left]
    rw [cut, List.mem_append, not_or]
    exact ⟨fun mem => absurd (targeted.chars _ mem) (by decide), by decide⟩
  rw [findChar?_eq (start behind)] at located
  rw [mayAssign_eq h (firstWord_front front (by decide) behind behind')] at may
  have blind : Blind (charTest '=') := blind_charTest (by decide) (by decide) (by decide)
  rcases h.firstTop_code blind with
    ⟨none_, -⟩ | ⟨part, part', c, rest, rest', whole, whole', here, here', passes, -, before, after⟩
  · rw [none_] at located
    cases located
  · rw [here, Option.some.injEq] at located
    obtain rfl : c = '=' := by simpa [charTest] using passes
    subst located
    refine ⟨_, annotated?_iff.2 ⟨_, behind', part'.length, declares behind' single,
      by rw [findChar?_eq (start behind'), here'], ?_, may, rfl⟩, ?_⟩
    · rw [whole] at free
      rw [whole']
      exact comparison_swapped before after free
    · simp only [subject, targetBefore_front]

theorem annotated?_swapped (h : Swapped Operand false .code code code') (found : (annotated? code).isSome) :
    (annotated? code').isSome :=
  (annotated?_carried h).isSome found

/-! ## Recognising headers -/

theorem starts_for_swapped (white : isBlankChar blank)
    (h : Swapped Operand false .code ('f' :: 'o' :: 'r' :: blank :: rest) code') :
    ∃ rest', code' = 'f' :: 'o' :: 'r' :: blank :: rest' := by
  have word : firstWord ("for".toList ++ blank :: rest) = "for".toList := by
    rw [firstWord, nameAtStart_append]
    · decide
    · rintro c ⟨⟩
      exact isWordChar_of_isBlankChar white
  have whole : Swapped Operand false .code ("for".toList ++ blank :: rest) code' := h
  obtain ⟨behind, rfl, later⟩ := whole.word_append (by decide) (by decide) (by rw [word]; decide)
  obtain ⟨rest', rfl, -⟩ := later.cons_of_joined
  exact ⟨rest', rfl⟩

theorem starts_print_swapped (h : Swapped Operand false .code ("print".toList ++ '(' :: rest) code') :
    ∃ rest', code' = "print".toList ++ '(' :: rest' ∧ Swapped Operand false .code rest rest' := by
  have word : firstWord ("print".toList ++ '(' :: rest) = "print".toList := by
    rw [firstWord, nameAtStart_append]
    · decide
    · rintro c ⟨⟩
      decide
  obtain ⟨behind, rfl, later⟩ := h.word_append (by decide) (by decide) (by rw [word]; decide)
  obtain ⟨rest', rfl, found⟩ := later.cons_of_joined
  exact ⟨rest', rfl, found⟩

theorem print?_swapped (blank : ∀ c ∈ blanks, isBlankChar c) (h : Swapped Operand false .code rest rest')
    (found : (print? (("print".toList ++ blanks) ++ '(' :: rest)).isSome) :
    (print? (("print".toList ++ blanks) ++ '(' :: rest')).isSome := by
  obtain ⟨construct, found⟩ := Option.isSome_iff_exists.1 found
  obtain ⟨_, -, -, -, -, rfl⟩ := print?_iff.1 found
  obtain ⟨blanks', inner, close, behind, whole, -, -, blank', closed, closes, ends⟩ := print?_iff_shape.1 found
  obtain ⟨-, rfl⟩ := append_paren_inj (isTargetChar_print blank) (isTargetChar_print blank') whole
  obtain ⟨inner', behind', rfl, closed', agree⟩ := h.bracket closed closes
  rw [agree.blank ends]
  exact Option.isSome_iff_exists.2 ⟨_, print?_iff_shape.2 ⟨blanks, inner', close, behind, rfl, rfl, rfl, blank, closed',
    closes, ends⟩⟩

theorem trim_ne_nil_swapped (h : Swapped Operand joined mode code code') (filled : trim code ≠ []) :
    trim code' ≠ [] := by
  intro empty
  apply filled
  rw [trim_eq_nil_iff] at empty ⊢
  rwa [h.symm.blank empty]

theorem loopShape_swapped (h : Swapped Operand false .code code code') (shape : LoopShape code part body) :
    ∃ part' body', LoopShape code' part' body' := by
  obtain ⟨whole, ⟨blank, tail, starts, white⟩, iterates, found⟩ := shape
  rcases h.firstTop_code blind_wordTest_in with
    ⟨none_, -⟩ | ⟨before, before', c, rest, rest', cut, cut', here, here', -, -, -, right⟩
  · rw [none_] at found
    cases found
  · rw [here, Option.some.injEq] at found
    rw [whole] at cut
    obtain ⟨rfl, same⟩ := List.append_inj cut found.symm
    obtain ⟨rfl, rfl⟩ := List.cons.inj same
    rw [show joins 'i' by decide] at right
    obtain ⟨more', rfl, behind⟩ := right.cons_of_joined
    obtain ⟨body', rfl, bodies⟩ := behind.concat (by decide)
    rw [starts] at h
    obtain ⟨tail', starts'⟩ := starts_for_swapped white h
    exact ⟨before', body', cut', ⟨blank, tail', starts', white⟩, trim_ne_nil_swapped bodies iterates, here'⟩

theorem inlineShape_swapped (h : Swapped Operand false .code code code') (shape : InlineShape code head body) :
    ∃ head' body', InlineShape code' head' body' ∧ Swapped Operand false .code head head' ∧
      Swapped Operand false .code body body' := by
  obtain ⟨whole, starts, filled, found⟩ := shape
  rcases h.firstTop_code blind_colonTest with
    ⟨none_, -⟩ | ⟨before, before', c, rest, rest', cut, cut', here, here', passes, -, left, right⟩
  · rw [none_] at found
    cases found
  · rw [here, Option.some.injEq] at found
    rw [whole] at cut
    obtain ⟨rfl, same⟩ := List.append_inj cut found.symm
    obtain ⟨rfl, rfl⟩ := List.cons.inj same
    rw [show joins ':' = false by decide] at right
    refine ⟨before', rest', ⟨cut', ?_, ?_, here'⟩, left, right⟩
    · have apart : ∀ word ∈ compoundKeywords, word ∉ operandWords := by decide +kernel
      have mem : firstWord code ∈ compoundKeywords := by simpa using starts
      rwa [h.firstWord_eq rfl (apart _ mem)]
    · exact trim_ne_nil_swapped right filled

end Construct

end LineProbe
