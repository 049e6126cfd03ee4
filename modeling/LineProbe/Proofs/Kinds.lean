import LineProbe.Proofs.Definitions
import LineProbe.Proofs.Straight

/-!
# What a code is with its blocking calls replaced

A statement is classified, its blocking calls are replaced, and what comes out is classified again.
-/

namespace LineProbe

open Text

namespace Construct

open Instrument

/-! ## Classifying headers -/

theorem early?_of_defParts? (h : defParts? code = some parts) : early? code = none := by
  have word := firstWord_of_defParts? h
  have keyword : Signature.keywords.contains (firstWord code) := by
    have all : ∀ word ∈ (["def".toList, "async".toList] : List Text), Signature.keywords.contains word := by
      decide +kernel
    exact all _ word
  have other {first : Text} (apart : first ∉ (["def".toList, "async".toList] : List Text)) : firstWord code ≠ first := by
    rintro rfl
    exact apart word
  obtain ⟨augmented, assignment, annotated⟩ := assigning_of_not_mayAssign (mayAssign_of_keyword keyword)
  simp only [early?, Option.or_eq_none_iff]
  refine ⟨⟨⟨⟨⟨⟨?_, augmented⟩, assignment⟩, annotated⟩, ?_⟩, ?_⟩, ?_, ?_⟩ <;>
    rw [Option.eq_none_iff_forall_ne_some] <;> intro construct found
  · obtain ⟨mark, -⟩ := decorator?_iff.1 found
    refine other (by decide) (nameAtStart_of_head ?_)
    rw [mark]
    rintro c ⟨⟩
    decide
  · obtain ⟨-, free, -⟩ := annotationOnly?_iff.1 found
    rw [keyword] at free
    cases free
  · exact other (by decide) (firstWord_of_print? found)
  · obtain ⟨_, -, -, -, -, -, rfl⟩ := forHeader?_iff.1 found
    obtain ⟨part, body, shape, -, -⟩ := forHeader?_iff_shape.1 found
    exact other (by decide) shape.firstWord
  · exact other (by decide) (returning?_iff.1 found).1

theorem classify_of_defParts? {inner : Text} (h : defParts? code = some (name, inner)) :
    classify code = (Signature.parameterNames code inner).map (.defHeader name) := by
  rw [classify_eq, early?_of_defParts? h, defHeader?, h]
  dsimp only
  cases Signature.parameterNames code inner <;> rfl

theorem classify_of_print? (targeted : targeted? code = none) (found : print? code = some construct) :
    classify code = .ok construct := by
  have early : early? code = some construct := by
    show ((targeted? code).or (print? code)).or ((forHeader? code).or (returning? code)) = some construct
    rw [targeted, found]
    rfl
  rw [classify_eq, early]

theorem classify_of_no_parts (h : defParts? code = none) :
    classify code = .ok ((early? code).getD ((late? code).getD .plain)) := by
  rw [classify_eq, defHeader?, h]
  cases early? code <;> rfl

theorem kindOf_eq_defHeader_iff (h : classify code = .ok kind) :
    kindOf kind = .defHeader ↔ (defParts? code).isSome := by
  cases parts : defParts? code with
  | some found =>
    rw [classify_of_defParts? parts] at h
    cases named : Signature.parameterNames code found.2 with
    | error fault =>
      rw [named] at h
      cases h
    | ok params =>
      rw [named] at h
      cases h
      exact ⟨fun _ => rfl, fun _ => rfl⟩
  | none =>
    refine ⟨fun same => ?_, fun found => by cases found⟩
    cases classify_ok h with
    | defHeader _ found _ =>
      rw [parts] at found
      cases found
    | _ => cases same

/-! ## Codes that are read differently -/

/-- A code that is another kind of statement once its blocking calls are replaced. -/
inductive Misread : Text → Prop where
  | printed {blanks first behind : Text} (filled : blanks ≠ []) (blank : ∀ c ∈ blanks, isBlankChar c = true)
    (call : BlockingCall first) (ends : ∀ c ∈ behind, isBlankChar c = true) :
    Misread (("print".toList ++ blanks) ++ (first ++ behind))
  | named {code name inner : Text} (parts : defParts? code = some (name, inner)) (blocking : name ∈ blockingNames) :
    Misread code
  | defined {front name first behind : Text} (header : DefFront front name) (apart : front.getLast?.any joins = false)
    (call : BlockingCall first) (ends : endsWithChar behind ':' = true) : Misread (front ++ (first ++ behind))

section Exchanged

variable (h : Exchanged value false .code index site spans code code') (values : ∀ site, Bracketed (value site))

include h values

theorem print?_exchanged (found : (print? code).isSome) : (print? code').isSome := by
  obtain ⟨construct, known⟩ := Option.isSome_iff_exists.1 found
  obtain ⟨_, -, -, -, -, rfl⟩ := print?_iff.1 known
  obtain ⟨blanks, inner, close, behind, rfl, -, -, blank, -, -, -⟩ := print?_iff_shape.1 known
  have word : Silent (blanks ++ '(' :: (inner ++ close :: behind)) none .code "print".toList :=
    silent_word (by decide) (opensParen_blanks blank).stops fun mem => absurd mem (by decide)
  have silent : Silent ('(' :: (inner ++ close :: behind)) none .code ("print".toList ++ blanks) :=
    silent_append.2 ⟨word, silent_blanks blank⟩
  obtain ⟨rest', rfl, inside⟩ := h.opened (isTargetChar_print blank) silent values
  exact print?_swapped blank inside found

theorem print?_of_exchanged (found : (print? code').isSome) : (print? code).isSome ∨ Misread code := by
  obtain ⟨construct, known⟩ := Option.isSome_iff_exists.1 found
  obtain ⟨_, -, -, -, -, rfl⟩ := print?_iff.1 known
  obtain ⟨blanks, inner, close, behind, rfl, -, -, blank, closed, closes, ends⟩ := print?_iff_shape.1 known
  rcases h.of_opened (isTargetChar_print blank) values with
    ⟨rest, rfl, inside⟩ | ⟨apart, first, rest, inner', behind', call, rfl, whole, closed', agree⟩
  · exact .inl (print?_swapped blank inside.symm found)
  · -- The parentheses of the value are those of the call, so nothing but white space is behind the value.
    obtain ⟨rfl, rfl, rfl⟩ := closed.unique closed' closes rfl whole
    refine .inr (.printed ?_ blank call ?_)
    · rintro rfl
      exact absurd apart (by decide)
    · rwa [agree.symm.blank ends]

theorem defParts?_exchanged {inner : Text} (parts : defParts? code = some (name, inner)) (other : name ∉ blockingNames) :
    ∃ inner', defParts? code' = some (name, inner') := by
  obtain ⟨front, close, behind, header, rfl, closed, closes, ends⟩ := defParts?_iff_shape.1 parts
  have silent : Silent ('(' :: (inner ++ close :: behind)) none .code front :=
    header.silent (.inr (by rintro c ⟨⟩; decide)) fun mem => absurd mem other
  obtain ⟨rest', rfl, inside⟩ := h.opened header.chars silent values
  obtain ⟨inner', behind', rfl, closed', agree⟩ := inside.bracket closed closes
  rw [agree.endsWithChar (fun _ => Operand.getLast?) (by decide)] at ends
  exact ⟨inner', defParts?_iff_shape.2 ⟨front, close, behind', header, rfl, closed', closes, ends⟩⟩

theorem defParts?_of_exchanged (parts : defParts? code' = some (name, inner')) :
    (∃ inner, defParts? code = some (name, inner)) ∨ Misread code := by
  obtain ⟨front, close, behind', header, rfl, closed', closes, ends'⟩ := defParts?_iff_shape.1 parts
  rcases h.of_opened header.chars values with
    ⟨rest, rfl, inside⟩ | ⟨apart, first, rest, inner, behind, call, rfl, whole, closed, agree⟩
  · obtain ⟨inner, behind, rfl, closed, agree⟩ := inside.symm.bracket closed' closes
    rw [agree.endsWithChar (fun _ => Operand.getLast?) (by decide)] at ends'
    exact .inl ⟨inner, defParts?_iff_shape.2 ⟨front, close, behind, header, rfl, closed, closes, ends'⟩⟩
  · obtain ⟨rfl, rfl, rfl⟩ := closed'.unique closed closes rfl whole
    rw [← agree.endsWithChar (fun _ => Operand.getLast?) (by decide)] at ends'
    exact .inr (.defined header apart call ends')

theorem defParts?_of_named {inner : Text} (parts : defParts? code = some (name, inner)) (blocking : name ∈ blockingNames) :
    defParts? code' = none := by
  obtain ⟨front, close, behind, header, rfl, closed, closes, -⟩ := defParts?_iff_shape.1 parts
  cases header with
  | @intro lead _ blanks leads plain named blank =>
    -- The name, its parameters and the brackets around them are the call that is replaced.
    have call : BlockingCall (name ++ (blanks ++ '(' :: (inner ++ [close]))) := .intro blocking blank closed closes
    rw [show (lead ++ (name ++ blanks)) ++ '(' :: (inner ++ close :: behind) =
      lead ++ ((name ++ (blanks ++ '(' :: (inner ++ [close]))) ++ behind) by simp] at h
    obtain ⟨inner', behind', rfl, -, -⟩ := h.called leads.chars (leads.silent _) leads.apart call values
    have left := afterSpacedWord?_def_iff.2 ⟨⟨lead, leads, rfl⟩, show ∀ c ∈ ('(' :: (inner' ++ ')' :: behind')).head?,
      isBlankChar c = false by rintro c ⟨⟩; decide⟩
    rw [Option.eq_none_iff_forall_ne_some]
    rintro ⟨name', _⟩ found
    obtain ⟨rest, left', rfl, named', -⟩ := defParts?_iff.1 found
    obtain rfl := Option.some.inj (left.symm.trans left')
    exact named' (nameAtStart_of_head (by rintro c ⟨⟩; decide))

end Exchanged

theorem defParts?_eq_none_of_call (header : DefFront front name) (apart : front.getLast?.any joins = false)
    (call : BlockingCall first) (behind : Text) : defParts? (front ++ (first ++ behind)) = none := by
  obtain ⟨blanks, left, named, -, blank⟩ := header.found (first ++ behind) (.inl apart)
  rw [Option.eq_none_iff_forall_ne_some]
  rintro ⟨name', _⟩ found
  obtain ⟨rest, left', rfl, -, paren, -⟩ := defParts?_iff.1 found
  obtain rfl := Option.some.inj (left.symm.trans left')
  rw [named, List.drop_left, OpensParen, trimLeft_append_of_blank blank] at paren
  exact call.not_opensParen behind paren

theorem defParts?_eq_none_of_print (filled : blanks ≠ []) (blank : ∀ c ∈ blanks, isBlankChar c) (rest : Text) :
    defParts? (("print".toList ++ blanks) ++ rest) = none := by
  rw [Option.eq_none_iff_forall_ne_some]
  intro parts found
  have word := firstWord_of_defParts? found
  rw [firstWord_spaced (by decide) filled blank] at word
  exact absurd word (by decide)

theorem print?_eq_none_of_call (blank : ∀ c ∈ blanks, isBlankChar c) (call : BlockingCall first) (behind : Text) :
    print? (("print".toList ++ blanks) ++ (first ++ behind)) = none := by
  rw [Option.eq_none_iff_forall_ne_some]
  intro construct found
  obtain ⟨_, -, paren, -⟩ := print?_iff.1 found
  rw [List.append_assoc, show ("print".toList ++ (blanks ++ (first ++ behind))).drop 5 = blanks ++ (first ++ behind) from
    List.drop_left' rfl, trimLeft_append_of_blank blank] at paren
  exact call.not_opensParen behind paren

theorem targeted?_eq_none_of_name (first : nameAtStart ((word ++ blanks) ++ c :: tail) = word) (named : word ≠ [])
    (blank : ∀ c ∈ blanks, isBlankChar c) (visible : isBlankChar c = false) (other : c ∉ ".:=-+*/%@&|^<>".toList) :
    targeted? ((word ++ blanks) ++ c :: tail) = none := by
  have trimmed : trimLeft (blanks ++ c :: tail) = c :: tail := by
    rw [trimLeft_append_of_blank blank, trimLeft_of_head]
    rintro d ⟨⟩
    exact visible
  have apart {mark : Char} (known : mark ∈ ".:=-+*/%@&|^<>".toList) : c ≠ mark := by
    rintro rfl
    exact other known
  have target : afterTarget? ((word ++ blanks) ++ c :: tail) = some (blanks ++ c :: tail) := by
    rw [afterTarget?, first, if_neg named, List.append_assoc, List.drop_left, afterAttributes_of_other]
    rw [trimmed]
    exact fun dot => apart (by decide) (Option.some.inj dot)
  have declared (left behind : Text) : afterAnnotationColon? ((word ++ blanks) ++ c :: tail) ≠ some (left, behind) := by
    intro found
    obtain ⟨target', colon, -⟩ := afterAnnotationColon?_iff.1 found
    obtain rfl := Option.some.inj (target.symm.trans target')
    rw [trimmed] at colon
    exact apart (by decide) (List.cons.inj colon).1
  simp only [targeted?, Option.or_eq_none_iff]
  refine ⟨⟨⟨⟨?_, ?_⟩, ?_⟩, ?_⟩, ?_⟩ <;> rw [Option.eq_none_iff_forall_ne_some] <;> intro construct found
  · obtain ⟨mark, -⟩ := decorator?_iff.1 found
    obtain ⟨d, word, rfl⟩ := List.exists_cons_of_ne_nil named
    obtain rfl : d = '@' := Option.some.inj mark
    cases first
  · obtain ⟨left, operator, behind, _, target', known, -⟩ := augmented?_iff.1 found
    obtain rfl := Option.some.inj (target.symm.trans target')
    obtain ⟨whole, nonempty, chars⟩ := operator?_spec known
    obtain ⟨mark, more, rfl⟩ := List.exists_cons_of_ne_nil nonempty
    rw [trimmed] at whole
    have symbols : "-+*/%@&|^<>".toList ⊆ ".:=-+*/%@&|^<>".toList := by decide +kernel
    exact apart (symbols (by simpa using chars mark List.mem_cons_self)) (List.cons.inj whole).1
  · obtain ⟨left, value, target', equals, -⟩ := assignment?_iff.1 found
    obtain rfl := Option.some.inj (target.symm.trans target')
    obtain ⟨whole, -⟩ := afterEquals?_iff.1 equals
    rw [trimmed] at whole
    exact apart (by decide) (List.cons.inj whole).1
  · obtain ⟨_, _, _, found, -⟩ := annotated?_iff.1 found
    exact declared _ _ found
  · obtain ⟨found, -⟩ := annotationOnly?_iff.1 found
    obtain ⟨⟨left, behind⟩, found⟩ := Option.isSome_iff_exists.1 found
    exact declared _ _ found

theorem targeted?_eq_none (plain : nameAtStart word = word) (named : word ≠ []) (filled : blanks ≠ [])
    (blank : ∀ c ∈ blanks, isBlankChar c) (second : isWordChar c) :
    targeted? ((word ++ blanks) ++ c :: tail) = none := by
  refine targeted?_eq_none_of_name (firstWord_spaced plain filled blank) named blank
    (isBlankChar_of_isWordChar second) fun known => ?_
  have symbols : ∀ c ∈ ".:=-+*/%@&|^<>".toList, isWordChar c = false := by decide +kernel
  rw [symbols c known] at second
  cases second

theorem Misread.name {code name inner : Text} (h : Misread code) (parts : defParts? code = some (name, inner)) :
    name ∈ blockingNames := by
  cases h with
  | printed filled blank call ends =>
    rw [defParts?_eq_none_of_print filled blank] at parts
    cases parts
  | named parts' blocking =>
    rw [parts] at parts'
    cases parts'
    exact blocking
  | defined header apart call ends =>
    rw [defParts?_eq_none_of_call header apart call] at parts
    cases parts

/-! ## Codes that are read alike -/

/-- Two codes are the same kind of statement with the same subject, or they are headers of functions with one name, of
which the parameters of one cannot be read. -/
inductive Alike (code code' : Text) : Prop where
  | read {kind kind' : Construct} (construct : classify code = .ok kind) (construct' : classify code' = .ok kind')
    (same : profile kind' = profile kind) : Alike code code'
  | unread {name inner inner' : Text} (parts : defParts? code = some (name, inner))
    (parts' : defParts? code' = some (name, inner'))
    (fault : ¬ ((Signature.parameterNames code inner).isOk = true ∧ (Signature.parameterNames code' inner').isOk = true)) :
    Alike code code'

theorem Alike.isSome_defParts? (h : Alike code code') : (defParts? code).isSome = (defParts? code').isSome := by
  cases h with
  | read construct construct' same =>
    rw [Bool.eq_iff_iff, ← kindOf_eq_defHeader_iff construct, ← kindOf_eq_defHeader_iff construct',
      show kindOf _ = kindOf _ from congrArg Prod.fst same]
  | unread parts parts' _ => rw [parts, parts']; rfl

theorem alike_of_defParts? {inner : Text} (parts : defParts? code = some (name, inner))
    (parts' : defParts? code' = some (name, inner')) : Alike code code' := by
  have construct := classify_of_defParts? parts
  have construct' := classify_of_defParts? parts'
  cases named : Signature.parameterNames code inner with
  | error fault => exact .unread parts parts' fun both => by simp [named, Except.isOk, Except.toBool] at both
  | ok params =>
    cases named' : Signature.parameterNames code' inner' with
    | error fault => exact .unread parts parts' fun both => by simp [named', Except.isOk, Except.toBool] at both
    | ok params' =>
      rw [named] at construct
      rw [named'] at construct'
      exact .read construct construct' rfl

section Swapped

variable (h : Swapped Operand false .code code code')

include h

theorem late?_swapped : (late? code).map profile = (late? code').map profile := by
  have block : (blockHeader? code).map profile = (blockHeader? code').map profile := by
    rw [blockHeader?, blockHeader?, h.endsWithChar (fun _ => Operand.getLast?) (by decide)]
    split <;> rfl
  rw [late?, Option.map_or, block, map_profile_last h, ← Option.map_or, late?]

theorem early?_profile (print : (print? code).isSome = (print? code').isSome) :
    (early? code).map profile = (early? code').map profile := by
  have known (code : Text) :
      (print? code).map profile = if (print? code).isSome then some (.printCall, []) else none := by
    cases found : print? code with
    | none => rfl
    | some construct =>
      obtain ⟨_, -, -, -, -, rfl⟩ := print?_iff.1 found
      rfl
  have printed : (print? code).map profile = (print? code').map profile := by rw [known, known, print]
  have loop := map_profile_of_isSome .forHeader (fun found => by
    obtain ⟨_, -, -, -, -, -, rfl⟩ := forHeader?_iff.1 found
    rfl) forHeader?_swapped h
  show (((targeted? code).or (print? code)).or ((forHeader? code).or (returning? code))).map profile =
    (((targeted? code').or (print? code')).or ((forHeader? code').or (returning? code'))).map profile
  simp only [Option.map_or, targeted?_swapped h, printed, loop, map_profile_returning h]

theorem alike_of_no_parts (print : (print? code).isSome = (print? code').isSome) (parts : defParts? code = none)
    (parts' : defParts? code' = none) : Alike code code' := by
  have profile_getD (found last : Option Construct) : profile (found.getD (last.getD .plain)) =
      (found.map profile).getD ((last.map profile).getD (profile .plain)) := by
    cases found <;> cases last <;> rfl
  refine .read (classify_of_no_parts parts) (classify_of_no_parts parts') ?_
  rw [profile_getD, profile_getD, early?_profile h print, late?_swapped h]

end Swapped

/-! ## The kind of a statement -/

section Exchanged

variable (h : Exchanged value false .code index site spans code code') (values : ∀ site, Bracketed (value site))

include h values

theorem alike_of_not_misread (read : ¬ Misread code) : Alike code code' := by
  cases parts : defParts? code with
  | some found =>
    obtain ⟨inner', parts'⟩ := defParts?_exchanged h values parts fun mem => read (.named parts mem)
    exact alike_of_defParts? parts parts'
  | none =>
    refine alike_of_no_parts (h.swapped values).operands ?_ parts ?_
    · rw [Bool.eq_iff_iff]
      exact ⟨print?_exchanged h values, fun found => (print?_of_exchanged h values found).resolve_right read⟩
    · rw [Option.eq_none_iff_forall_ne_some]
      rintro ⟨name, inner'⟩ parts'
      obtain ⟨inner, found⟩ := (defParts?_of_exchanged h values parts').resolve_right read
      rw [parts] at found
      cases found

theorem not_alike_of_printed {blanks first behind : Text} (whole : code = ("print".toList ++ blanks) ++ (first ++ behind))
    (filled : blanks ≠ []) (blank : ∀ c ∈ blanks, isBlankChar c) (call : BlockingCall first)
    (ends : ∀ c ∈ behind, isBlankChar c) : ¬ Alike code code' := by
  subst whole
  have targeted : targeted? code' = none := by
    obtain ⟨c, tail, begins⟩ := List.exists_cons_of_ne_nil (List.append_ne_nil_of_left_ne_nil call.operand.ne_nil behind)
    have opens := call.opens behind
    rw [begins] at opens
    have same := targeted?_swapped (h.swapped values).operands
    rw [begins, targeted?_eq_none (by decide) (by decide) filled blank opens.word_head] at same
    exact Option.map_eq_none_iff.1 same.symm
  have silent : Silent (first ++ behind) none .code ("print".toList ++ blanks) :=
    silent_spaced (by decide) (by decide) filled blank
  obtain ⟨inner', behind', rfl, closed, agree⟩ :=
    h.called (isTargetChar_print blank) silent (joins_getLast?_blanks filled blank) call values
  obtain rfl := agree.blank ends
  have printed := classify_of_print? targeted
    (print?_iff_shape.2 ⟨blanks, inner', ')', behind', rfl, rfl, rfl, blank, closed, rfl, ends⟩)
  rintro (⟨construct, construct', same⟩ | ⟨parts, -, -⟩)
  · obtain rfl := Except.ok.inj (printed.symm.trans construct')
    have kind := congrArg Prod.fst same
    cases classify_ok construct with
    | printCall found =>
      rw [print?_eq_none_of_call blank call] at found
      cases found
    | _ => cases kind
  · rw [defParts?_eq_none_of_print filled blank] at parts
    cases parts

theorem not_alike_of_misread (misread : Misread code) : ¬ Alike code code' := by
  intro alike
  cases misread with
  | printed filled blank call ends => exact not_alike_of_printed h values rfl filled blank call ends alike
  | named parts blocking =>
    have same := alike.isSome_defParts?
    rw [parts, defParts?_of_named h values parts blocking] at same
    cases same
  | @defined front name first behind header apart call ends =>
    have silent : Silent (first ++ behind) none .code front :=
      header.silent (.inl apart) fun _ => call.not_opensParen behind
    obtain ⟨inner', behind', rfl, closed, agree⟩ := h.called header.chars silent apart call values
    have ends' : endsWithChar behind' ':' := by
      rwa [← agree.endsWithChar (fun _ => Operand.getLast?) (by decide)]
    have same := alike.isSome_defParts?
    rw [defParts?_eq_none_of_call header apart call,
      defParts?_iff_shape.2 ⟨front, ')', behind', header, rfl, closed, rfl, ends'⟩] at same
    cases same

end Exchanged

/-- Replacing the blocking calls of a code leaves it the kind of statement that it was, with the same target, operator or
name of a function, exactly if the code is none of those that are misread. The value in place of the calls may be any
one that the parentheses around it close. -/
theorem alike_substituteBlocking_iff (code : Text) (line : Int) (directives : Directives) (callLimit : Int) (site : Nat)
    (closed : Closed ('(' :: (mockValue directives ++ [')']))) :
    Alike code (substituteBlocking code line directives callLimit site).1 ↔ ¬ Misread code := by
  have values (number : Nat) : Bracketed (Probe.guardedValue (Probe.siteName number) line
      (directives.effectiveLimit callLimit) (mockValue directives)) :=
    bracketed_of_parenthesized number line _ closed
  have exchanged := replaceSpans_exchanged (fun number => Probe.guardedValue (Probe.siteName number) line
      (directives.effectiveLimit callLimit) (mockValue directives)) [] code site
  constructor
  · intro alike misread
    exact not_alike_of_misread exchanged values misread alike
  · exact alike_of_not_misread exchanged values

theorem alike_substituteBlocking_iff_header :
    Closed ('(' :: (mockValue ⟨some "f(\")\")", none⟩ ++ [')'])) ∧ ¬ Misread "async def read(x=input(\"a)\")) -> input():" ∧
      Alike "async def read(x=input(\"a)\")) -> input():"
        (substituteBlocking "async def read(x=input(\"a)\")) -> input():" 3 ⟨some "f(\")\")", none⟩ 100 1).1 := by
  have closed : Closed ('(' :: (mockValue ⟨some "f(\")\")", none⟩ ++ [')'])) := by decide +kernel
  have parts : defParts? "async def read(x=input(\"a)\")) -> input():" =
      some ("read".toList, "x=input(\"a)\")".toList) := by
    decide +kernel
  have read : ¬ Misread "async def read(x=input(\"a)\")) -> input():" :=
    fun misread => absurd (misread.name parts) (by decide)
  exact ⟨closed, read, (alike_substituteBlocking_iff _ 3 ⟨some "f(\")\")", none⟩ 100 1 closed).2 read⟩

/-- The three forms of code that are misread, and a declaration that a mock turns into an assignment by closing the
parentheses around it. -/
theorem kind_changed :
    (classify "def input(x):" = .ok (.defHeader "input" ["x"]) ∧
      classify (substituteBlocking "def input(x):" 0 .none 100 1).1 = .ok (.blockHeader "def")) ∧
    (classify "print input()" = .ok .plain ∧
      classify (substituteBlocking "print input()" 0 .none 100 1).1 = .ok (.printCall 6 40)) ∧
    (classify "def f input():" = .ok (.blockHeader "def") ∧
      classify (substituteBlocking "def f input():" 0 .none 100 1).1 = .ok (.defHeader "f" [])) ∧
    (scan .closed ")) = ((" = ⟨0, .closed, none⟩ ∧ classify "x: input()" = .ok .plain ∧
      classify (substituteBlocking "x: input()" 0 ⟨some ")) = ((", none⟩ 100 1).1 = .ok (.annotated "x" 38)) := by
  decide +kernel

end Construct

end LineProbe
