import LineProbe.Construct.Recognize
import LineProbe.Proofs.Search

/-!
# What a recognised code looks like

`classify` asks its recognisers one after the other.
-/

namespace LineProbe.Construct

open Text

/-! ## The order of the recognisers -/

def early? (code : Text) : Option Construct :=
  ((((((decorator? code).or (augmented? code)).or (assignment? code)).or (annotated? code)).or
    (annotationOnly? code)).or (print? code)).or ((forHeader? code).or (returning? code))

def late? (code : Text) : Option Construct :=
  (blockHeader? code).or ((inlineCompound? code).or (ignorable? code))

theorem classify_eq (code : Text) :
    classify code = match early? code with
      | some construct => .ok construct
      | none => (defHeader? code).map fun found => found.getD ((late? code).getD .plain) := by
  unfold classify recognizers early? late?
  simp only [List.findSomeM?, total]
  cases decorator? code <;> try rfl
  cases augmented? code <;> try rfl
  cases assignment? code <;> try rfl
  cases annotated? code <;> try rfl
  cases annotationOnly? code <;> try rfl
  cases print? code <;> try rfl
  cases forHeader? code <;> try rfl
  cases returning? code <;> try rfl
  cases defHeader? code with
  | error fault => rfl
  | ok found =>
    cases found <;> cases blockHeader? code <;> cases inlineCompound? code <;> cases ignorable? code <;> rfl

/-! ## Answers -/

theorem decorator?_iff : decorator? code = some construct ↔ code.head? = some '@' ∧ .decorator = construct := by
  simp [decorator?]

theorem augmented?_iff :
    augmented? code = some construct ↔ ∃ rest operator behind value, afterTarget? code = some rest ∧
      operator? (trimLeft rest) = some (operator, behind) ∧ afterEquals? behind = some value ∧
      mayAssign code ∧ .augmented (targetBefore code rest) operator (indexOf code value) = construct := by
  simp only [augmented?, bind, Option.bind_eq_some_iff, Prod.exists, Option.ite_none_right_eq_some,
    Option.some.injEq, exists_and_left]

theorem assignment?_iff :
    assignment? code = some construct ↔ ∃ rest value, afterTarget? code = some rest ∧
      afterEquals? (trimLeft rest) = some value ∧ mayAssign code ∧
      .assignment (targetBefore code rest) (indexOf code value) = construct := by
  simp [assignment?, Option.bind_eq_some_iff]

theorem annotated?_iff :
    annotated? code = some construct ↔ ∃ rest behind equals, afterAnnotationColon? code = some (rest, behind) ∧
      findChar? code '=' (indexOf code behind) = some equals ∧
      (code[equals + 1]? == some '=' || code[equals - 1]?.any ("<>!".toList.contains ·)) = false ∧
      mayAssign code ∧ .annotated (targetBefore code rest) (equals + 1) = construct := by
  simp only [annotated?, bind, Option.bind_eq_some_iff, Prod.exists, Option.ite_none_left_eq_some,
    Option.ite_none_right_eq_some, Bool.not_eq_true, Option.some.injEq, exists_and_left]

theorem annotationOnly?_iff :
    annotationOnly? code = some construct ↔ (afterAnnotationColon? code).isSome ∧
      Signature.keywords.contains (firstWord code) = false ∧ endsWithChar code ':' = false ∧
      .plain = construct := by
  simp [annotationOnly?, Option.bind_eq_some_iff, Option.isSome_iff_exists, and_assoc]

theorem print?_iff :
    print? code = some construct ↔ ∃ closeParen, startsWith code "print" ∧
      (trimLeft (code.drop 5)).head? = some '(' ∧
      matchingBracket? code (indexOf code (trimLeft (code.drop 5))) = some closeParen ∧
      trim (code.drop (closeParen + 1)) = [] ∧
      .printCall (indexOf code (trimLeft (code.drop 5))) closeParen = construct := by
  simp only [print?, bind, Option.bind_none, Option.bind_eq_some_iff, Option.ite_none_left_eq_some,
    Option.ite_none_right_eq_some, Option.some.injEq, exists_and_left, bne_iff_ne, ne_eq, Decidable.not_not,
    Bool.not_eq_true', Bool.not_eq_false]

theorem forHeader?_iff :
    forHeader? code = some construct ↔ ∃ index, startsWith code "for" ∧
      code[3]?.any isBlankChar ∧ endsWithChar code ':' ∧ findKeyword? code "in" 3 = some index ∧
      trim (slice code (index + 2) (code.length - 1)) ≠ [] ∧
      .forHeader (code.take (index + 2) ++ [' ']) (trim (slice code (index + 2) (code.length - 1))) = construct := by
  simp [forHeader?, Option.bind_eq_some_iff, and_assoc]

theorem returning?_iff :
    returning? code = some construct ↔ firstWord code = "return" ∧ .returning (trim (code.drop 6)) = construct := by
  simp only [returning?, Option.ite_none_right_eq_some, Option.some.injEq]

theorem inlineCompound?_iff :
    inlineCompound? code = some construct ↔ ∃ colon, compoundKeywords.contains (firstWord code) ∧
      findColon? code = some colon ∧ trim (code.drop (colon + 1)) ≠ [] ∧ .inlineCompound colon = construct := by
  simp [inlineCompound?, Option.bind_eq_some_iff]

inductive Recognised (code : Text) : Construct → Prop where
  | decorator (h : decorator? code = some .decorator) : Recognised code .decorator
  | augmented {target operator : Text} {valueStart : Nat}
    (h : augmented? code = some (.augmented target operator valueStart)) :
    Recognised code (.augmented target operator valueStart)
  | assignment {target : Text} {valueStart : Nat} (h : assignment? code = some (.assignment target valueStart)) :
    Recognised code (.assignment target valueStart)
  | annotated {target : Text} {valueStart : Nat} (h : annotated? code = some (.annotated target valueStart)) :
    Recognised code (.annotated target valueStart)
  | declared (h : annotationOnly? code = some .plain) : Recognised code .plain
  | printCall {openParen closeParen : Nat} (h : print? code = some (.printCall openParen closeParen)) :
    Recognised code (.printCall openParen closeParen)
  | forHeader {head iterable : Text} (h : forHeader? code = some (.forHeader head iterable)) :
    Recognised code (.forHeader head iterable)
  | returning (h : firstWord code = "return") : Recognised code (.returning (trim (code.drop 6)))
  | defHeader {name inner : Text} {params : List Text} (early : early? code = none)
    (h : defParts? code = some (name, inner)) (named : Signature.parameterNames code inner = .ok params) :
    Recognised code (.defHeader name params)
  | blockHeader (early : early? code = none) (h : endsWithChar code ':' = true) :
    Recognised code (.blockHeader (firstWord code))
  | inlineCompound {colon : Nat} (early : early? code = none) (last : endsWithChar code ':' = false)
    (h : inlineCompound? code = some (.inlineCompound colon)) : Recognised code (.inlineCompound colon)
  | ignorable (last : endsWithChar code ':' = false) (h : ignorableKeywords.contains (firstWord code) = true) :
    Recognised code (.ignorable (firstWord code))
  | plain (early : early? code = none) (h : endsWithChar code ':' = false) : Recognised code .plain

theorem early?_some (h : early? code = some construct) : Recognised code construct := by
  simp only [early?, Option.or_eq_some_iff] at h
  rcases h with (((((h | ⟨-, h⟩) | ⟨-, h⟩) | ⟨-, h⟩) | ⟨-, h⟩) | ⟨-, h⟩) | ⟨-, h | ⟨-, h⟩⟩
  · obtain ⟨-, rfl⟩ := decorator?_iff.1 h
    exact .decorator h
  · obtain ⟨_, _, _, _, -, -, -, -, rfl⟩ := augmented?_iff.1 h
    exact .augmented h
  · obtain ⟨_, _, -, -, -, rfl⟩ := assignment?_iff.1 h
    exact .assignment h
  · obtain ⟨_, _, _, -, -, -, -, rfl⟩ := annotated?_iff.1 h
    exact .annotated h
  · obtain ⟨-, -, -, rfl⟩ := annotationOnly?_iff.1 h
    exact .declared h
  · obtain ⟨_, -, -, -, -, rfl⟩ := print?_iff.1 h
    exact .printCall h
  · obtain ⟨_, -, -, -, -, -, rfl⟩ := forHeader?_iff.1 h
    exact .forHeader h
  · obtain ⟨word, rfl⟩ := returning?_iff.1 h
    exact .returning word

theorem late?_some (early : early? code = none) (h : late? code = some construct) : Recognised code construct := by
  simp only [late?, Option.or_eq_some_iff] at h
  have last (unblocked : blockHeader? code = none) : endsWithChar code ':' = false := by
    simpa [blockHeader?] using unblocked
  rcases h with h | ⟨unblocked, h | ⟨-, h⟩⟩
  · simp only [blockHeader?, Option.ite_none_right_eq_some] at h
    obtain ⟨colon, same⟩ := h
    cases same
    exact .blockHeader early colon
  · obtain ⟨_, -, -, -, rfl⟩ := inlineCompound?_iff.1 h
    exact .inlineCompound early (last unblocked) h
  · simp only [ignorable?, Option.ite_none_right_eq_some] at h
    obtain ⟨word, same⟩ := h
    cases same
    exact .ignorable (last unblocked) word

theorem defParts?_of_not_colon (h : endsWithChar code ':' = false) : defParts? code = none := by
  rw [Option.eq_none_iff_forall_ne_some]
  intro parts found
  simp [defParts?, h] at found

theorem defHeader?_some (early : early? code = none) (h : defHeader? code = .ok (some construct)) :
    Recognised code construct := by
  unfold defHeader? at h
  split at h
  · cases h
  · next name inner parts =>
    cases named : Signature.parameterNames code inner with
    | error fault =>
      rw [named] at h
      cases h
    | ok params =>
      rw [named] at h
      cases h
      exact .defHeader early parts named

theorem classify_ok (h : classify code = .ok construct) : Recognised code construct := by
  rw [classify_eq] at h
  split at h
  · next found =>
    cases h
    exact early?_some found
  · next early =>
    cases header : defHeader? code with
    | error fault =>
      rw [header] at h
      cases h
    | ok found =>
      rw [header] at h
      cases found with
      | some construct =>
        cases h
        exact defHeader?_some early header
      | none =>
        cases last : late? code with
        | some construct =>
          rw [last] at h
          cases h
          exact late?_some early last
        | none =>
          rw [last] at h
          cases h
          have open_ : endsWithChar code ':' = false := by
            simp only [late?, blockHeader?, Option.or_eq_none_iff] at last
            simpa using last.1
          exact .plain early open_

theorem forHeader?_of_classify (h : classify code = .ok (.forHeader head iterable)) :
    forHeader? code = some (.forHeader head iterable) := by
  cases classify_ok h with
  | forHeader found => exact found

theorem endsWithChar_of_opensBlock (h : classify code = .ok kind) (opens : kind.opensBlock) :
    endsWithChar code ':' := by
  cases classify_ok h with
  | forHeader found =>
    obtain ⟨_, -, -, colon, -⟩ := forHeader?_iff.1 found
    exact colon
  | defHeader early found named =>
    by_contra other
    rw [defParts?_of_not_colon (by simpa using other)] at found
    cases found
  | blockHeader early colon => exact colon
  | _ => cases opens

/-! ## Targets and operators -/

def isTargetChar (c : Char) : Bool :=
  isWordChar c || c == '.' || isBlankChar c

theorem isTargetChar_of_isBlankChar (h : isBlankChar c) : isTargetChar c := by
  simp [isTargetChar, h]

theorem isQuiet_of_isTargetChar (h : isTargetChar c) : isQuiet c :=
  isQuiet_of (by decide) h

theorem isTargetChar_of_mem_nameAtStart (h : c ∈ nameAtStart text) : isTargetChar c := by
  simp [isTargetChar, isWordChar_of_mem_nameAtStart h]

theorem afterAttributes_spec (text : Text) :
    ∃ target, text = target ++ afterAttributes text ∧ ∀ c ∈ target, isTargetChar c := by
  fun_induction afterAttributes text with
  | case1 text rest dot member empty => exact ⟨[], rfl, by simp⟩
  | case2 text rest dot member nonempty ih =>
    obtain ⟨target, whole, chars⟩ := ih
    refine ⟨leadingBlanks text ++ '.' :: leadingBlanks rest ++ member ++ target, ?_, ?_⟩
    · have cut : member ++ (trimLeft rest).drop member.length = trimLeft rest :=
        List.prefix_iff_eq_append.1 (isPrefix_nameAtStart (trimLeft rest))
      calc text = leadingBlanks text ++ '.' :: rest := by rw [← dot, leadingBlanks_append_trimLeft]
        _ = leadingBlanks text ++ '.' :: (leadingBlanks rest ++ (member ++ (trimLeft rest).drop member.length)) := by
          rw [cut, leadingBlanks_append_trimLeft]
        _ = _ := by
          conv => lhs; rw [whole]
          simp
    · intro c mem
      simp only [List.mem_append, List.mem_cons] at mem
      rcases mem with ((blank | rfl | blank) | named) | later
      · exact isTargetChar_of_isBlankChar (isBlankChar_of_mem_leadingBlanks blank)
      · rfl
      · exact isTargetChar_of_isBlankChar (isBlankChar_of_mem_leadingBlanks blank)
      · exact isTargetChar_of_mem_nameAtStart named
      · exact chars c later
  | case3 text other => exact ⟨[], rfl, by simp⟩

theorem afterTarget?_spec (h : afterTarget? code = some rest) :
    ∃ target, code = target ++ rest ∧ target ≠ [] ∧ (∀ c ∈ target, isTargetChar c) ∧
      targetBefore code rest = target.filter (!isBlankChar ·) := by
  simp only [afterTarget?, Option.ite_none_left_eq_some, Option.some.injEq] at h
  obtain ⟨named, rfl⟩ := h
  obtain ⟨target, whole, chars⟩ := afterAttributes_spec (code.drop (nameAtStart code).length)
  have cut : nameAtStart code ++ code.drop (nameAtStart code).length = code :=
    List.prefix_iff_eq_append.1 (isPrefix_nameAtStart code)
  have all : code = (nameAtStart code ++ target) ++ afterAttributes (code.drop (nameAtStart code).length) := by
    rw [List.append_assoc, ← whole, cut]
  refine ⟨nameAtStart code ++ target, all, by simp [named], ?_, ?_⟩
  · intro c mem
    exact (List.mem_append.1 mem).elim isTargetChar_of_mem_nameAtStart (chars c)
  · have index : indexOf code (afterAttributes (code.drop (nameAtStart code).length)) =
        (nameAtStart code ++ target).length := by
      have := congrArg List.length all
      simp only [indexOf, List.length_append] at this ⊢
      omega
    have taken : code.take (nameAtStart code ++ target).length = nameAtStart code ++ target := by
      have := congrArg (List.take (nameAtStart code ++ target).length) all
      rwa [List.take_left] at this
    rw [targetBefore, index, taken]

theorem mem_targetBefore (h : afterTarget? code = some rest) (mem : c ∈ targetBefore code rest) :
    isWordChar c ∨ c = '.' := by
  obtain ⟨target, -, -, chars, same⟩ := afterTarget?_spec h
  rw [same, List.mem_filter] at mem
  have := chars c mem.1
  simp_all [isTargetChar]

theorem nameAtStart_targetBefore (h : afterTarget? code = some rest) : nameAtStart (targetBefore code rest) ≠ [] := by
  obtain ⟨target, whole, nonempty, -, same⟩ := afterTarget?_spec h
  obtain ⟨c, tail, rfl⟩ := List.exists_cons_of_ne_nil nonempty
  have start : isNameStart c := by
    by_contra other
    simp [afterTarget?, whole, nameAtStart, other] at h
  have kept : isBlankChar c = false := isBlankChar_of_isWordChar (isWordChar_of_isNameStart start)
  rw [same, List.filter_cons_of_pos (by simp [kept]), nameAtStart, if_pos start]
  simp

theorem not_word_of_not_target (other : isTargetChar mark = false) (rest : Text) :
    ∀ c ∈ (mark :: rest).head?, isWordChar c = false := by
  rintro c ⟨⟩
  simp only [isTargetChar, Bool.or_eq_false_iff] at other
  exact other.1.1

theorem afterAttributes_of_dot (h : trimLeft text = '.' :: rest) :
    afterAttributes text = if nameAtStart (trimLeft rest) = [] then text
      else afterAttributes ((trimLeft rest).drop (nameAtStart (trimLeft rest)).length) := by
  rw [afterAttributes]
  split
  · next same =>
    rw [h, List.cons.injEq] at same
    obtain ⟨-, rfl⟩ := same
    rfl
  · next other => exact absurd h (other _)

theorem afterAttributes_of_other (h : (trimLeft text).head? ≠ some '.') : afterAttributes text = text := by
  rw [afterAttributes]
  split
  · next same =>
    rw [same] at h
    exact absurd rfl h
  · rfl

theorem afterAttributes_before (front : Text) (other : isTargetChar mark = false) :
    ∃ left, ∀ rest, afterAttributes (front ++ mark :: rest) = left ++ mark :: rest := by
  have notBlank : isBlankChar mark = false := by simp_all [isTargetChar]
  have notDot : mark ≠ '.' := by
    rintro rfl
    cases other
  induction size : front.length using Nat.strongRecOn generalizing front with
  | ind size_ ih =>
    subst size
    have trimmed (rest : Text) := trimLeft_append_cons front rest notBlank
    by_cases dot : (trimLeft front).head? = some '.'
    · obtain ⟨more, kept⟩ : ∃ more, trimLeft front = '.' :: more := by
        cases kept : trimLeft front with
        | nil => simp [kept] at dot
        | cons c more => exact ⟨more, by simpa [kept] using dot⟩
      have behind (rest : Text) := trimLeft_append_cons more rest notBlank
      have name (rest : Text) : nameAtStart (trimLeft (more ++ mark :: rest)) = nameAtStart (trimLeft more) := by
        rw [behind, nameAtStart_append _ (not_word_of_not_target other rest)]
      have step (rest : Text) : afterAttributes (front ++ mark :: rest) =
          if nameAtStart (trimLeft more) = [] then front ++ mark :: rest
          else afterAttributes ((trimLeft more).drop (nameAtStart (trimLeft more)).length ++ mark :: rest) := by
        rw [afterAttributes_of_dot (by rw [trimmed, kept, List.cons_append]), name, behind,
          List.drop_append_of_le_length (isPrefix_nameAtStart _).length_le]
      by_cases empty : nameAtStart (trimLeft more) = []
      · exact ⟨front, fun rest => by rw [step, if_pos empty]⟩
      · have shorter : ((trimLeft more).drop (nameAtStart (trimLeft more)).length).length < front.length := by
          have first := length_trimLeft_le front
          have second := length_trimLeft_le more
          rw [kept, List.length_cons] at first
          rw [List.length_drop]
          omega
        obtain ⟨left, found⟩ := ih _ shorter _ rfl
        exact ⟨left, fun rest => by rw [step, if_neg empty, found]⟩
    · refine ⟨front, fun rest => afterAttributes_of_other ?_⟩
      rw [trimmed]
      cases kept : trimLeft front with
      | nil => simpa using notDot
      | cons c more => simpa [kept] using dot

structure Targeted (front : Text) (mark : Char) : Prop where
  chars : ∀ c ∈ front, isTargetChar c = true
  found : ∃ left, (∀ c ∈ left, isBlankChar c = true) ∧
    ∀ rest, afterTarget? (front ++ mark :: rest) = some (left ++ mark :: rest)

theorem targeted_of_afterTarget? (h : afterTarget? code = some left) (trimmed : trimLeft left = mark :: rest)
    (other : isTargetChar mark = false) : ∃ front, code = front ++ mark :: rest ∧ Targeted front mark := by
  obtain ⟨target, whole, nonempty, chars, -⟩ := afterTarget?_spec h
  have cut : left = leadingBlanks left ++ mark :: rest := by rw [← trimmed, leadingBlanks_append_trimLeft]
  have all : code = (target ++ leadingBlanks left) ++ mark :: rest := by rw [List.append_assoc, ← cut, whole]
  refine ⟨target ++ leadingBlanks left, all, ?_, leadingBlanks left, fun c => isBlankChar_of_mem_leadingBlanks, ?_⟩
  · intro c mem
    rcases List.mem_append.1 mem with inTarget | blank
    · exact chars c inTarget
    · exact isTargetChar_of_isBlankChar (isBlankChar_of_mem_leadingBlanks blank)
  · have name (rest : Text) := nameAtStart_append (target ++ leadingBlanks left) (not_word_of_not_target other rest)
    obtain ⟨between, found⟩ :=
      afterAttributes_before ((target ++ leadingBlanks left).drop (nameAtStart (target ++ leadingBlanks left)).length) other
    have answer (rest : Text) : afterTarget? ((target ++ leadingBlanks left) ++ mark :: rest) =
        if nameAtStart (target ++ leadingBlanks left) = [] then none else some (between ++ mark :: rest) := by
      rw [afterTarget?, name, ← found, List.drop_append_of_le_length (isPrefix_nameAtStart _).length_le]
    have here := answer rest
    rw [← all, h] at here
    split at here
    · cases here
    · next named =>
      rw [Option.some.injEq, cut] at here
      intro rest
      rw [answer, if_neg named, List.append_cancel_right here]

theorem Targeted.paren_not_mem (h : Targeted front mark) : '(' ∉ front :=
  fun mem => absurd (h.chars _ mem) (by decide)

theorem firstWord_front (front : Text) (other : isTargetChar mark = false) (rest rest' : Text) :
    firstWord (front ++ mark :: rest) = firstWord (front ++ mark :: rest') :=
  (nameAtStart_append _ (not_word_of_not_target other rest)).trans
    (nameAtStart_append _ (not_word_of_not_target other rest')).symm

theorem afterAnnotationColon?_iff :
    afterAnnotationColon? code = some (rest, behind) ↔
      afterTarget? code = some rest ∧ trimLeft rest = ':' :: behind ∧ behind.head? ≠ some '=' := by
  simp only [afterAnnotationColon?, bind, Option.bind_eq_some_iff]
  constructor
  · rintro ⟨found, target, h⟩
    split at h
    · next colon =>
      simp only [Option.ite_none_left_eq_some, Option.some.injEq, Prod.mk.injEq, beq_iff_eq] at h
      obtain ⟨single, rfl, rfl⟩ := h
      exact ⟨target, colon, single⟩
    · cases h
  · rintro ⟨target, colon, single⟩
    refine ⟨rest, target, ?_⟩
    rw [colon]
    simp [single]

theorem operator?_spec (h : operator? text = some (operator, rest)) :
    text = operator ++ rest ∧ operator ≠ [] ∧ ∀ c ∈ operator, "-+*/%@&|^<>".toList.contains c := by
  unfold operator? at h
  split at h <;> try (cases h; exact ⟨rfl, by decide, by decide⟩)
  · next c rest =>
    rw [Option.ite_none_right_eq_some] at h
    obtain ⟨known, same⟩ := h
    cases same
    refine ⟨rfl, by simp, fun d mem => ?_⟩
    rw [List.mem_singleton] at mem
    subst mem
    simp only [List.contains_iff_mem] at known ⊢
    exact List.mem_append_left "<>".toList known
  · cases h

theorem afterEquals?_iff : afterEquals? text = some value ↔ text = '=' :: value ∧ value.head? ≠ some '=' := by
  unfold afterEquals?
  split
  · simp only [Option.ite_none_left_eq_some, beq_iff_eq, Option.some.injEq, List.cons.injEq, true_and]
    constructor
    · rintro ⟨single, rfl⟩
      exact ⟨rfl, single⟩
    · rintro ⟨rfl, single⟩
      exact ⟨single, rfl⟩
  · next other =>
    simp only [reduceCtorEq, false_iff, not_and]
    rintro rfl
    exact absurd rfl (other _)

theorem trimLeft_blanks_append (blank : ∀ c ∈ left, isBlankChar c) (other : isTargetChar mark = false) (rest : Text) :
    trimLeft (left ++ mark :: rest) = mark :: rest := by
  rw [trimLeft_append_of_blank blank, trimLeft_of_head]
  rintro c ⟨⟩
  simp_all [isTargetChar]

theorem operator?_behind (h : operator? text = some (operator, '=' :: rest)) (rest' : Text) :
    operator? (operator ++ '=' :: rest') = some (operator, '=' :: rest') := by
  unfold operator? at h
  split at h <;> try (cases h; rfl)
  · next c _ _ _ _ _ =>
    rw [Option.ite_none_right_eq_some] at h
    obtain ⟨known, same⟩ := h
    cases same
    have split (d : Char) (behind : Text) : [c] ++ '=' :: rest' = d :: d :: behind → d = '=' := by
      intro same
      simp only [List.singleton_append, List.cons.injEq] at same
      exact same.2.1.symm
    unfold operator?
    split
    case h_5 same =>
      obtain ⟨rfl, rfl⟩ := List.cons.inj same
      rw [if_pos known]
      rfl
    case h_6 same => cases same
    all_goals
      next same => exact absurd (split _ _ same) (by decide)
  · cases h

/-! ## The parts of headers and calls -/

theorem startsWith_eq_true (h : startsWith text start) : ∃ rest, text = start ++ rest := by
  obtain ⟨rest, whole⟩ := List.isPrefixOf_iff_prefix.1 h
  exact ⟨rest, whole.symm⟩

theorem slice_append (first middle last : Text) :
    slice (first ++ (middle ++ last)) first.length (first.length + middle.length) = middle := by
  rw [slice, ← List.append_assoc, ← List.length_append, List.take_left, List.drop_left]

theorem wordTest_in_iff :
    wordTest "in" previous (c :: rest) ↔
      c = 'i' ∧ rest.takeWhile isWordChar = ['n'] ∧ previous.any isWordChar = false := by
  have n : isWordChar 'n' := by decide
  have head : startsWith (c :: rest) "in" ↔ c = 'i' ∧ rest.head? = some 'n' := by
    rw [startsWith, List.isPrefixOf_iff_prefix, show ("in" : String).toList = ['i', 'n'] from rfl,
      List.cons_prefix_cons]
    cases rest <;> simp [eq_comm]
  have word : rest.takeWhile isWordChar = ['n'] ↔ rest.head? = some 'n' ∧ wordCharAt (c :: rest) 2 = false := by
    cases rest with
    | nil => simp
    | cons d rest =>
      by_cases same : d = 'n'
      · subst same
        cases rest with
        | nil => simp [n, wordCharAt]
        | cons e rest => cases isWord : isWordChar e <;> simp [n, wordCharAt, isWord]
      · cases isWord : isWordChar d <;> simp [isWord, same]
  rw [wordTest, Bool.and_eq_true, Bool.and_eq_true, Bool.not_eq_true', Bool.not_eq_true', head, word]
  rw [show ("in" : String).toList.length = 2 from rfl]
  constructor
  · rintro ⟨⟨⟨first, second⟩, before⟩, behind⟩
    exact ⟨first, ⟨second, behind⟩, before⟩
  · rintro ⟨first, ⟨second, behind⟩, before⟩
    exact ⟨⟨⟨first, second⟩, before⟩, behind⟩

structure LoopShape (code part body : Text) : Prop where
  whole : code = part ++ 'i' :: 'n' :: (body ++ [':'])
  starts : ∃ blank rest, code = 'f' :: 'o' :: 'r' :: blank :: rest ∧ isBlankChar blank = true
  iterates : trim body ≠ []
  found : firstTop (wordTest "in") none .code 0 code = some part.length

theorem findKeyword?_in_for :
    findKeyword? ('f' :: 'o' :: 'r' :: blank :: rest) "in" 3 =
      firstTop (wordTest "in") none .code 0 ('f' :: 'o' :: 'r' :: blank :: rest) := by
  apply findKeyword?_eq
  intro index early
  rw [wholeWordAt]
  have other : startsWith (('f' :: 'o' :: 'r' :: blank :: rest).drop index) "in" = false := by
    obtain rfl | rfl | rfl : index = 0 ∨ index = 1 ∨ index = 2 := by omega
    all_goals rfl
  rw [other]
  rfl

theorem slice_loop (part body : Text) :
    slice (part ++ 'i' :: 'n' :: (body ++ [':'])) (part.length + 2)
      ((part ++ 'i' :: 'n' :: (body ++ [':'])).length - 1) = body := by
  have cut := slice_append (part ++ ['i', 'n']) body [':']
  have same : (part ++ ['i', 'n']) ++ (body ++ [':']) = part ++ 'i' :: 'n' :: (body ++ [':']) := by simp
  rw [same] at cut
  have length : (part ++ 'i' :: 'n' :: (body ++ [':'])).length - 1 = (part ++ ['i', 'n']).length + body.length := by
    simp only [List.length_append, List.length_cons, List.length_nil]
    omega
  rw [length, show part.length + 2 = (part ++ ['i', 'n']).length by simp, cut]

theorem forHeader?_iff_shape :
    forHeader? code = some (.forHeader head iterable) ↔
      ∃ part body, LoopShape code part body ∧ head = part ++ "in ".toList ∧ iterable = trim body := by
  have taken (part body : Text) :
      (part ++ 'i' :: 'n' :: (body ++ [':'])).take (part.length + 2) ++ [' '] = part ++ "in ".toList := by
    rw [List.take_append, List.take_of_length_le (by omega), Nat.add_sub_cancel_left]
    simp
  rw [forHeader?_iff]
  constructor
  · rintro ⟨index, starts, blank, last, located, iterates, same⟩
    cases same
    obtain ⟨rest, rfl⟩ := startsWith_eq_true starts
    obtain ⟨b, more, rfl⟩ : ∃ b more, rest = b :: more := by
      cases rest with
      | nil => cases blank
      | cons b more => exact ⟨b, more, rfl⟩
    rw [show "for".toList ++ b :: more = 'f' :: 'o' :: 'r' :: b :: more from rfl] at *
    rw [findKeyword?_in_for] at located
    obtain ⟨part, c, behind, whole, rfl, -, -, passes⟩ := firstTop_eq_some located
    obtain ⟨rfl, word, -⟩ := wordTest_in_iff.1 passes
    obtain ⟨body, rfl⟩ : ∃ body, behind = 'n' :: (body ++ [':']) := by
      obtain ⟨tail, rfl⟩ : ∃ tail, behind = 'n' :: tail := by
        cases behind with
        | nil => cases word
        | cons d tail =>
          rw [List.takeWhile_cons] at word
          split at word
          · exact ⟨tail, by rw [(List.cons.inj word).1]⟩
          · cases word
      have colon : endsWithChar tail ':' := by
        rw [whole] at last
        cases tail with
        | nil => simp [endsWithChar] at last
        | cons d tail => simpa [endsWithChar, List.getLast?_append] using last
      obtain ⟨body, rfl⟩ := endsWithChar_eq_true colon
      exact ⟨body, rfl⟩
    rw [whole, slice_loop] at iterates
    refine ⟨part, body, ⟨whole, ⟨b, more, rfl, by simpa using blank⟩, iterates, located⟩, ?_, ?_⟩
    · rw [whole, taken]
    · rw [whole, slice_loop]
  · rintro ⟨part, body, ⟨whole, ⟨b, more, starts, blank⟩, iterates, found⟩, rfl, rfl⟩
    refine ⟨part.length, ?_, ?_, ?_, ?_, ?_, ?_⟩
    · rw [starts]
      rfl
    · rw [starts]
      simpa using blank
    · rw [whole, show part ++ 'i' :: 'n' :: (body ++ [':']) = (part ++ 'i' :: 'n' :: body) ++ [':'] by simp,
        endsWithChar_concat]
    · rw [starts] at found ⊢
      rw [findKeyword?_in_for, found]
    · rwa [whole, slice_loop]
    · rw [whole, slice_loop, taken]

structure InlineShape (code head body : Text) : Prop where
  whole : code = head ++ ':' :: body
  starts : compoundKeywords.contains (firstWord code) = true
  filled : trim body ≠ []
  found : firstTop colonTest none .code 0 code = some head.length

theorem inlineCompound?_iff_shape :
    inlineCompound? code = some (.inlineCompound colon) ↔ ∃ head body, InlineShape code head body ∧ head.length = colon := by
  have behind (head body : Text) : (head ++ ':' :: body).drop (head.length + 1) = body := by
    rw [show head ++ ':' :: body = (head ++ [':']) ++ body by simp, show head.length + 1 = (head ++ [':']).length by simp,
      List.drop_left]
  rw [inlineCompound?_iff]
  constructor
  · rintro ⟨_, starts, located, filled, same⟩
    cases same
    rw [findColon?_eq] at located
    obtain ⟨head, c, body, rfl, rfl, -, -, passes⟩ := firstTop_eq_some located
    obtain rfl : c = ':' := by
      simp only [colonTest, List.head?_cons, Bool.and_eq_true, beq_iff_eq, Option.some.injEq] at passes
      exact passes.1
    rw [behind] at filled
    exact ⟨head, body, ⟨rfl, starts, filled, located⟩, rfl⟩
  · rintro ⟨head, body, ⟨rfl, starts, filled, found⟩, rfl⟩
    exact ⟨head.length, starts, by rw [findColon?_eq, found], by rwa [behind], rfl⟩

theorem isTargetChar_print (blank : ∀ c ∈ blanks, isBlankChar c) : ∀ c ∈ "print".toList ++ blanks, isTargetChar c := by
  have word : ∀ c ∈ "print".toList, isTargetChar c := by decide
  exact List.forall_mem_append.2 ⟨word, fun c mem => isTargetChar_of_isBlankChar (blank c mem)⟩

theorem append_paren_inj (chars : ∀ c ∈ before, isTargetChar c) (chars' : ∀ c ∈ before', isTargetChar c)
    (same : before ++ '(' :: after = before' ++ '(' :: after') : before = before' ∧ after = after' := by
  have outside {text : Text} (chars : ∀ c ∈ text, isTargetChar c) : '(' ∉ text :=
    fun mem => absurd (chars _ mem) (by decide)
  have place := congrArg (List.idxOf '(') same
  rw [List.idxOf_append, List.idxOf_append, if_neg (outside chars), if_neg (outside chars'), List.idxOf_cons_self,
    List.idxOf_cons_self] at place
  obtain ⟨rfl, behind⟩ := List.append_inj same (by omega)
  exact ⟨rfl, (List.cons.inj behind).2⟩

theorem print?_iff_shape :
    print? code = some (.printCall openParen closeParen) ↔ ∃ blanks inner close behind,
      code = ("print".toList ++ blanks) ++ '(' :: (inner ++ close :: behind) ∧
      openParen = ("print".toList ++ blanks).length ∧ closeParen = ("print".toList ++ blanks).length + 1 + inner.length ∧
      (∀ c ∈ blanks, isBlankChar c) ∧ Closed inner ∧ isCloser close ∧
      ∀ c ∈ behind, isBlankChar c := by
  have settled {blanks : Text} (blank : ∀ c ∈ blanks, isBlankChar c) :
      (Mode.code.run ("print".toList ++ blanks)).isSettled :=
    (Mode.depthRun_quiet rfl (fun c mem => isQuiet_of_isTargetChar (isTargetChar_print blank c mem)) 0).1
  have opening (blanks after : Text) (blank : ∀ c ∈ blanks, isBlankChar c) :
      trimLeft ((("print".toList ++ blanks) ++ '(' :: after).drop 5) = '(' :: after := by
    rw [List.append_assoc, show ("print".toList ++ (blanks ++ '(' :: after)).drop 5 = blanks ++ '(' :: after from
      List.drop_left' rfl, trimLeft_append_of_blank blank, trimLeft_of_head (by rintro c ⟨⟩; decide)]
  have index (blanks after : Text) : indexOf (("print".toList ++ blanks) ++ '(' :: after) ('(' :: after) =
      ("print".toList ++ blanks).length := by
    rw [indexOf, List.length_append, Nat.add_sub_cancel]
  have rest (before inner behind : Text) (close : Char) :
      (before ++ '(' :: (inner ++ close :: behind)).drop (before.length + 1 + inner.length + 1) = behind := by
    rw [show before ++ '(' :: (inner ++ close :: behind) = (before ++ '(' :: (inner ++ [close])) ++ behind by simp]
    exact List.drop_left' (by simp only [List.length_append, List.length_cons, List.length_nil]; omega)
  rw [print?_iff]
  constructor
  · rintro ⟨_, starts, paren, matched, ends, same⟩
    cases same
    obtain ⟨tail, rfl⟩ := startsWith_eq_true starts
    rw [show ("print".toList ++ tail).drop 5 = tail from List.drop_left' rfl] at *
    obtain ⟨after, trimmed⟩ : ∃ after, trimLeft tail = '(' :: after := by
      cases trimmed : trimLeft tail with
      | nil => simp [trimmed] at paren
      | cons c after =>
        rw [trimmed] at paren
        exact ⟨after, by rw [Option.some.inj paren]⟩
    have blank : ∀ c ∈ leadingBlanks tail, isBlankChar c := fun c => isBlankChar_of_mem_leadingBlanks
    have whole : "print".toList ++ tail = ("print".toList ++ leadingBlanks tail) ++ '(' :: after := by
      rw [List.append_assoc, ← trimmed, leadingBlanks_append_trimLeft]
    rw [whole, trimmed, index] at matched ⊢
    rw [whole] at ends
    obtain ⟨-, inner, close, behind, rfl, rfl, closes, closed⟩ := matchingBracket?_spec matched (settled blank)
    rw [rest, trim_eq_nil_iff] at ends
    exact ⟨_, inner, close, behind, rfl, rfl, rfl, blank, closed, closes, ends⟩
  · rintro ⟨blanks, inner, close, behind, rfl, rfl, rfl, blank, closed, closes, ends⟩
    have starts : startsWith (("print".toList ++ blanks) ++ '(' :: (inner ++ close :: behind)) "print".toList :=
      List.isPrefixOf_iff_prefix.2 (by rw [List.append_assoc]; exact List.prefix_append _ _)
    rw [opening _ _ blank, index]
    refine ⟨_, starts, rfl, closed.matchingBracket? (settled blank) rfl closes behind, ?_, rfl⟩
    rwa [rest, trim_eq_nil_iff]

theorem print?_shape (h : print? code = some (.printCall openParen closeParen)) :
    ∃ before inner close behind, code = before ++ '(' :: (inner ++ close :: behind) ∧ openParen = before.length ∧
      closeParen = before.length + 1 + inner.length ∧ (∀ c ∈ before, isTargetChar c) ∧ Closed inner ∧
      isCloser close ∧ ∀ c ∈ behind, isBlankChar c := by
  obtain ⟨blanks, inner, close, behind, whole, opens, ends, blank, closed, closes, trailing⟩ := print?_iff_shape.1 h
  exact ⟨_, inner, close, behind, whole, opens, ends, isTargetChar_print blank, closed, closes, trailing⟩

theorem augmented?_shape (h : augmented? code = some (.augmented target operator valueStart)) :
    ∃ front value, code = (front ++ ['=']) ++ value ∧ (front ++ ['=']).length = valueStart ∧
      ∀ c ∈ front ++ ['='], isQuiet c := by
  obtain ⟨left, operator, behind, value, found, known, equals, -, same⟩ := augmented?_iff.1 h
  cases same
  obtain ⟨before, whole, -, chars, -⟩ := afterTarget?_spec found
  obtain ⟨trimmed, -, symbols⟩ := operator?_spec known
  obtain ⟨rfl, -⟩ := afterEquals?_iff.1 equals
  have cut : left = leadingBlanks left ++ (operator ++ '=' :: value) := by
    rw [← trimmed, leadingBlanks_append_trimLeft]
  have all : code = (before ++ leadingBlanks left ++ operator ++ ['=']) ++ value := by
    rw [whole]
    conv => lhs; rw [cut]
    simp
  refine ⟨_, value, all, ?_, ?_⟩
  · have length := congrArg List.length all
    rw [List.length_append] at length
    rw [indexOf, length, Nat.add_sub_cancel]
  · intro c mem
    simp only [List.mem_append, List.mem_singleton] at mem
    rcases mem with ((inTarget | blank) | symbol) | rfl
    · exact isQuiet_of_isTargetChar (chars c inTarget)
    · exact isQuiet_of_isBlankChar (isBlankChar_of_mem_leadingBlanks blank)
    · have all : ∀ c ∈ "-+*/%@&|^<>".toList, isQuiet c := by decide +kernel
      exact all c (by simpa using symbols c symbol)
    · rfl

theorem returning_shape (h : firstWord code = "return") :
    ∃ rest, code = "return".toList ++ rest ∧ code.drop 6 = rest := by
  obtain ⟨rest, whole⟩ := isPrefix_nameAtStart code
  rw [firstWord] at h
  rw [h] at whole
  exact ⟨rest, whole.symm, by rw [← whole]; exact List.drop_left' rfl⟩

end LineProbe.Construct
