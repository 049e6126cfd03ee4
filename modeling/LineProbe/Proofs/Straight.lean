import LineProbe.Proofs.PassedThrough
import LineProbe.Proofs.Splitting
import LineProbe.Proofs.Turns

/-!
# Straight-line code

An assignment, a declaration with a value, a plain statement or a call of `print` on one line becomes one or two lines
of the program, the last of which is a probe.
-/

namespace LineProbe

open Text

/-! ## Reading probes back -/

theorem Probe.lineDigits?_iff :
    Probe.lineDigits? statement = some digits ↔ digits ≠ [] ∧ (∀ c ∈ digits, isDigitChar c) ∧
      ∃ rest, trimLeft statement = "print(\"".toList ++ (digits ++ ':' :: rest) := by
  have tagged (rest : Text) : (rest.takeWhile isDigitChar ≠ [] ∧
      (rest.drop (rest.takeWhile isDigitChar).length).head? = some ':') ↔ startsWithTag rest := by
    simp [startsWithTag, tagDigits]
  unfold Probe.lineDigits?
  dsimp only
  constructor
  · intro h
    split at h
    · next starts =>
      obtain ⟨behind, whole⟩ := Construct.startsWith_eq_true starts
      rw [whole, List.drop_left, Option.ite_none_right_eq_some, tagged] at h
      obtain ⟨digits, rest, rfl, nonempty, digit⟩ := startsWithTag_iff.1 h.1
      obtain rfl := (tagDigits_append digit rest).symm.trans (Option.some.inj h.2)
      exact ⟨nonempty, digit, rest, whole⟩
    · cases h
  · rintro ⟨nonempty, digit, rest, whole⟩
    have starts : startsWith ("print(\"".toList ++ (digits ++ ':' :: rest)) "print(\"".toList :=
      List.isPrefixOf_iff_prefix.2 (List.prefix_append _ _)
    rw [whole, if_pos starts, List.drop_left, if_pos]
    · exact congrArg some (tagDigits_append digit rest)
    · rw [tagged, startsWithTag_iff]
      exact ⟨digits, rest, rfl, nonempty, digit⟩

theorem Probe.lineDigits?_tag (line : Nat) (rest : Text) :
    Probe.lineDigits? ("print".toList ++ '(' :: (Probe.tag line ++ rest)) = some (ofNat line) := by
  rw [Probe.lineDigits?_iff]
  refine ⟨Nat.toDigits_ne_nil, fun _ => Emission.isDigitChar_of_mem_ofNat, '"' :: rest, ?_⟩
  rw [trimLeft_of_head (by rintro c ⟨⟩; decide), Probe.tag, List.append_assoc, List.append_assoc]
  rfl

namespace Construct

open Instrument

/-! ## Codes that open no block -/

def targeted? (code : Text) : Option Construct :=
  ((((decorator? code).or (augmented? code)).or (assignment? code)).or (annotated? code)).or (annotationOnly? code)

def worded? (code : Text) : Option Construct :=
  (returning? code).or ((inlineCompound? code).or (ignorable? code))

theorem classify_of_not_colon (last : endsWithChar code ':' = false) :
    classify code = .ok ((((targeted? code).or (print? code)).or (worded? code)).getD .plain) := by
  cases early : early? code with
  | some construct =>
    rw [classify_eq, early]
    rw [early?, forHeader?_of_not_colon last, Option.none_or] at early
    rw [worded?, ← Option.or_assoc, targeted?, early]
    rfl
  | none =>
    rw [classify_of_late early last]
    rw [early?, forHeader?_of_not_colon last, Option.none_or] at early
    rw [worded?, ← Option.or_assoc, targeted?, early, Option.none_or]

def profile (construct : Construct) : StatementKind × List Text :=
  (kindOf construct, construct.subject)

theorem Carried.of_isSome (only : ∀ {code construct}, recognizer code = some construct → construct.subject = [])
    (carried : (recognizer code).isSome → (recognizer code').isSome) : Carried recognizer code code' := by
  intro construct found
  obtain ⟨construct', found'⟩ := Option.isSome_iff_exists.1 (carried (by rw [found]; rfl))
  exact ⟨construct', found', (only found').trans (only found).symm⟩

theorem map_profile_swapped (kind : StatementKind)
    (only : ∀ {code construct}, recognizer code = some construct → kindOf construct = kind)
    (carried : ∀ {code code'}, Swapped Operand false .code code code' → Carried recognizer code code')
    (h : Swapped Operand false .code code code') : (recognizer code).map profile = (recognizer code').map profile := by
  cases found : recognizer code with
  | some construct =>
    obtain ⟨construct', found', same⟩ := carried h construct found
    rw [found', Option.map_some, Option.map_some, profile, profile, only found, only found', same]
  | none =>
    cases found' : recognizer code' with
    | none => rfl
    | some construct' =>
      obtain ⟨_, back, -⟩ := carried h.symm construct' found'
      rw [found] at back
      cases back

theorem map_profile_of_isSome {recognizer : Text → Option Construct} (kind : StatementKind)
    (only : ∀ {code construct}, recognizer code = some construct → profile construct = (kind, []))
    (carried : ∀ {code code'}, Swapped Operand false .code code code' → (recognizer code).isSome →
      (recognizer code').isSome) (h : Swapped Operand false .code code code') :
    (recognizer code).map profile = (recognizer code').map profile :=
  map_profile_swapped kind (fun found => congrArg Prod.fst (only found))
    (fun swapped => .of_isSome (fun found => congrArg Prod.snd (only found)) (carried swapped)) h

theorem targeted?_swapped (h : Swapped Operand false .code code code') :
    (targeted? code).map profile = (targeted? code').map profile := by
  have decorator := map_profile_of_isSome .decorator (fun found => by
    obtain ⟨-, rfl⟩ := decorator?_iff.1 found
    rfl) decorator?_swapped h
  have augmented := map_profile_swapped .augmented (fun found => by
    obtain ⟨_, _, _, _, -, -, -, -, rfl⟩ := augmented?_iff.1 found
    rfl) augmented?_carried h
  have assignment := map_profile_swapped .assignment (fun found => by
    obtain ⟨_, _, -, -, -, rfl⟩ := assignment?_iff.1 found
    rfl) assignment?_carried h
  have annotated := map_profile_swapped .annotated (fun found => by
    obtain ⟨_, _, _, -, -, -, -, rfl⟩ := annotated?_iff.1 found
    rfl) annotated?_carried h
  have declared := map_profile_of_isSome .plain (fun found => by
    obtain ⟨-, -, -, rfl⟩ := annotationOnly?_iff.1 found
    rfl) annotationOnly?_swapped h
  simp only [targeted?, Option.map_or, decorator, augmented, assignment, annotated, declared]

theorem ignorable?_swapped (h : Swapped Operand false .code code code') (found : (ignorable? code).isSome) :
    (ignorable? code').isSome := by
  have apart : ∀ word ∈ ignorableKeywords, word ∉ operandWords := by decide +kernel
  simp only [ignorable?, Option.isSome_ite, List.contains_iff_mem] at found ⊢
  rwa [h.firstWord_eq rfl (apart _ found)]

theorem map_profile_returning (h : Swapped Operand false .code code code') :
    (returning? code).map profile = (returning? code').map profile :=
  map_profile_of_isSome .returning (fun found => by
    obtain ⟨-, rfl⟩ := returning?_iff.1 found
    rfl) returning?_swapped h

theorem map_profile_last (h : Swapped Operand false .code code code') :
    ((inlineCompound? code).or (ignorable? code)).map profile =
      ((inlineCompound? code').or (ignorable? code')).map profile := by
  have inline := map_profile_of_isSome .inlineCompound (fun found => by
    obtain ⟨_, -, -, -, rfl⟩ := inlineCompound?_iff.1 found
    rfl) inlineCompound?_swapped h
  have ignorable := map_profile_of_isSome .ignorable (fun {code construct} found => by
    simp only [ignorable?, Option.ite_none_right_eq_some] at found
    obtain ⟨-, same⟩ := found
    cases same
    rfl) ignorable?_swapped h
  simp only [Option.map_or, inline, ignorable]

theorem worded?_swapped (h : Swapped Operand false .code code code') :
    (worded? code).map profile = (worded? code').map profile := by
  rw [worded?, Option.map_or, map_profile_returning h, map_profile_last h, ← Option.map_or, worded?]

theorem kindOf_swapped (h : Swapped Operand false .code code code') (last : endsWithChar code ':' = false)
    (found : classify code = .ok kind) :
    ∃ kind', classify code' = .ok kind' ∧ (kindOf kind' = kindOf kind ∨
      kindOf kind = .printCall ∧ print? code' = none ∨ kindOf kind' = .printCall ∧ targeted? code = none) := by
  have last' : endsWithChar code' ':' = false := by rwa [← h.endsWithChar (fun _ => Operand.getLast?) (by decide)]
  have kindOf_getD (found : Option Construct) :
      kindOf (found.getD .plain) = ((found.map profile).getD (profile .plain)).1 := by
    cases found <;> rfl
  have call {code : Text} {construct : Construct} (found : print? code = some construct) :
      kindOf construct = .printCall := by
    obtain ⟨_, -, -, -, -, rfl⟩ := print?_iff.1 found
    rfl
  rw [classify_of_not_colon last, Except.ok.injEq] at found
  refine ⟨_, classify_of_not_colon last', ?_⟩
  subst found
  rw [kindOf_getD, kindOf_getD]
  simp only [Option.map_or, ← targeted?_swapped h, ← worded?_swapped h]
  cases targeted : targeted? code with
  | some construct => exact .inl rfl
  | none =>
    cases print : print? code with
    | some construct =>
      cases print' : print? code' with
      | some construct' => exact .inl ((call print').trans (call print).symm)
      | none => exact .inr (.inl ⟨call print, rfl⟩)
    | none =>
      cases print' : print? code' with
      | some construct' => exact .inr (.inr ⟨call print', rfl⟩)
      | none => exact .inl rfl

/-! ## Straight code -/

inductive StraightCode (code : Text) : Prop where
  | assigned {target : Text} {valueStart : Nat} (construct : classify code = .ok (.assignment target valueStart)) :
    StraightCode code
  | annotated {target : Text} {valueStart : Nat} (construct : classify code = .ok (.annotated target valueStart)) :
    StraightCode code
  | plain (construct : classify code = .ok .plain) (silent : Probe.lineDigits? code = none) : StraightCode code
  | printed {openParen closeParen : Nat} (construct : classify code = .ok (.printCall openParen closeParen))
    (direct : startsWith code "print(" = true) : StraightCode code

def isStraight (code : Text) : Bool :=
  match classify code with
  | .ok (.assignment ..) | .ok (.annotated ..) => true
  | .ok .plain => (Probe.lineDigits? code).isNone
  | .ok (.printCall ..) => startsWith code "print("
  | _ => false

theorem straightCode_iff : StraightCode code ↔ isStraight code := by
  constructor
  · rintro (construct | construct | ⟨construct, silent⟩ | ⟨construct, direct⟩)
    · rw [isStraight, construct]
    · rw [isStraight, construct]
    · rw [isStraight, construct]
      exact Option.isNone_iff_eq_none.2 silent
    · rw [isStraight, construct]
      exact direct
  · intro h
    unfold isStraight at h
    split at h
    · next construct => exact .assigned construct
    · next construct => exact .annotated construct
    · next construct => exact .plain construct (Option.isNone_iff_eq_none.1 h)
    · next construct => exact .printed construct h
    · cases h

instance : Decidable (StraightCode code) :=
  decidable_of_iff _ straightCode_iff.symm

theorem lineDigits?_swapped (h : Swapped Operand false .code code code') (silent : Probe.lineDigits? code = none) :
    Probe.lineDigits? code' = none := by
  rw [Option.eq_none_iff_forall_ne_some]
  intro digits found
  obtain ⟨nonempty, digit, rest, whole⟩ := Probe.lineDigits?_iff.1 found
  have back : Swapped Operand false .code ("print".toList ++ '(' :: ('"' :: digits ++ ':' :: rest)) (trimLeft code) := by
    have := h.trimLeft.symm
    rwa [whole] at this
  obtain ⟨behind, start, inside⟩ := starts_print_swapped back
  have plain : '(' ∉ '"' :: digits := by
    rw [List.mem_cons, not_or]
    exact ⟨by decide, fun mem => absurd (digit _ mem) (by decide)⟩
  obtain ⟨rest', rfl, -⟩ := inside.front plain (by decide) (by decide)
  rw [Probe.lineDigits?_iff.2 ⟨nonempty, digit, rest', start⟩] at silent
  cases silent

theorem afterTarget?_print (rest : Text) : afterTarget? ("print".toList ++ '(' :: rest) = some ('(' :: rest) := by
  have name : nameAtStart ("print".toList ++ '(' :: rest) = "print".toList := by
    rw [nameAtStart_append]
    · decide
    · rintro c ⟨⟩
      decide
  rw [afterTarget?, name, if_neg (by decide), List.drop_left, afterAttributes_of_other]
  rw [trimLeft_of_head (by rintro c ⟨⟩; decide)]
  simp

theorem lineDigits?_of_afterTarget? (starts : Starts code) (target : afterTarget? code = some left)
    (other : (trimLeft left).head? ≠ some '(') : Probe.lineDigits? code = none := by
  rw [Option.eq_none_iff_forall_ne_some]
  intro digits found
  obtain ⟨-, -, rest, whole⟩ := Probe.lineDigits?_iff.1 found
  obtain ⟨c, tail, same, notBlank⟩ := starts
  rw [trimLeft_of_head (by rw [same]; rintro d ⟨⟩; exact notBlank)] at whole
  rw [whole, show "print(\"".toList ++ (digits ++ ':' :: rest) =
    "print".toList ++ '(' :: ('"' :: (digits ++ ':' :: rest)) from rfl, afterTarget?_print, Option.some.injEq] at target
  rw [← target, trimLeft_of_head (by rintro c ⟨⟩; decide)] at other
  exact other rfl

theorem lineDigits?_of_assigned (starts : Starts code) (construct : classify code = .ok kind)
    (assigns : kindOf kind = .assignment ∨ kindOf kind = .annotated) : Probe.lineDigits? code = none := by
  cases classify_ok construct with
  | assignment found =>
    obtain ⟨left, value, target, equals, -⟩ := assignment?_iff.1 found
    refine lineDigits?_of_afterTarget? starts target ?_
    rw [(afterEquals?_iff.1 equals).1]
    simp
  | annotated found =>
    obtain ⟨left, behind, equals, declared, -⟩ := annotated?_iff.1 found
    obtain ⟨target, colon, -⟩ := afterAnnotationColon?_iff.1 declared
    refine lineDigits?_of_afterTarget? starts target ?_
    rw [colon]
    simp
  | _ => rcases assigns with same | same <;> cases same

theorem StraightCode.swapped (h : Swapped Operand false .code code code')
    (last : endsWithChar code ':' = false) (straight : StraightCode code)
    (stays : classify code = .ok .plain → ∀ openParen closeParen, classify code' ≠ .ok (.printCall openParen closeParen)) :
    StraightCode code' := by
  cases straight with
  | assigned construct =>
    obtain ⟨kind', construct', same | ⟨same, -⟩ | ⟨-, none_⟩⟩ := kindOf_swapped h last construct
    · cases kind' with
      | assignment => exact .assigned construct'
      | _ => cases same
    · cases same
    · cases classify_ok construct with
      | assignment found => simp [targeted?, found] at none_
  | annotated construct =>
    obtain ⟨kind', construct', same | ⟨same, -⟩ | ⟨-, none_⟩⟩ := kindOf_swapped h last construct
    · cases kind' with
      | annotated => exact .annotated construct'
      | _ => cases same
    · cases same
    · cases classify_ok construct with
      | annotated found => simp [targeted?, found] at none_
  | plain construct silent =>
    obtain ⟨kind', construct', same | ⟨same, -⟩ | ⟨same, -⟩⟩ := kindOf_swapped h last construct
    · cases kind' with
      | plain => exact .plain construct' (lineDigits?_swapped h silent)
      | _ => cases same
    · cases same
    · cases kind' with
      | printCall => exact absurd construct' (stays construct _ _)
      | _ => cases same
  | printed construct direct =>
    obtain ⟨rest, rfl⟩ := startsWith_eq_true direct
    obtain ⟨rest', rfl, inside⟩ := starts_print_swapped h
    have direct' : startsWith ("print".toList ++ '(' :: rest') "print(".toList :=
      List.isPrefixOf_iff_prefix.2 ⟨rest', rfl⟩
    obtain ⟨kind', construct', same | ⟨-, none_⟩ | ⟨same, -⟩⟩ := kindOf_swapped h last construct
    · cases kind' with
      | printCall => exact .printed construct' direct'
      | _ => cases same
    · cases classify_ok construct with
      | printCall found =>
        have found' := print?_swapped (List.forall_mem_nil _) inside (by
          show (print? ("print(".toList ++ rest)).isSome
          rw [found]
          rfl)
        rw [List.append_nil, none_] at found'
        cases found'
    · cases kind' with
      | printCall => exact .printed construct' direct'
      | _ => cases same

theorem firstWord_of_printCall_swapped (h : Swapped Operand false .code code code')
    (construct : classify code' = .ok (.printCall openParen closeParen)) : firstWord code = "print" := by
  cases classify_ok construct with
  | printCall found => exact h.symm.firstWord_eq (firstWord_of_print? found) (by decide)

end Construct

end LineProbe
