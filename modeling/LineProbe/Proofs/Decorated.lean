import LineProbe.Proofs.Definitions

/-!
# Decorated definitions

What stands between a decorator and what it decorates.
-/

namespace LineProbe.Instrument

open Text Construct

/-- A decorator, or a definition without a mock. -/
inductive Decorable (target : LogicalStatement) : Prop where
  | decorator (construct : classify target.body = .ok .decorator)
  | definition (word : firstWord target.body ∈ definitionWords) (compound : IsCompound target.body)
    (unmocked : target.directives.mock = none)

/-- What a decorable statement begins with: the pieces before its own code, and its own code or the header of it. -/
inductive Heralds (script : Script) (target : LogicalStatement) : List Piece → Piece → Prop where
  | decorator (construct : classify target.body = .ok .decorator) :
    Heralds script target [] (.code target.text target.first target.last)
  | definition {site : Nat} (word : firstWord target.body ∈ definitionWords) :
    Heralds script target
      (herald (script.indent.measure target.opening) target.first (headCode (target.emitted script.callLimit site)))
      (.header (leadingBlanks target.opening ++ headCode (target.emitted script.callLimit site)) target.first target.last)

theorem firstWord_of_decorator (construct : classify code = .ok .decorator) : firstWord code = [] := by
  cases classify_ok construct with
  | decorator known =>
    obtain ⟨at_, -⟩ := decorator?_iff.1 known
    refine nameAtStart_of_head ?_
    rw [at_]
    rintro c ⟨⟩
    decide

theorem Heralds.of_class (h : Heralds script target before own) (word : firstWord target.body = "class") :
    before = [.injected (script.indent.measure target.opening) (.probe none) target.first] := by
  cases h with
  | decorator construct =>
    rw [firstWord_of_decorator construct] at word
    cases word
  | @definition site mem =>
    have head := firstWord_headCode (target.emitted script.callLimit site)
    rw [firstWord_emitted script.callLimit site mem, word] at head
    rw [herald, not_function_of_class head]
    rfl

section Target

variable {pass : Pass}

theorem Decorable.not_string (visible : isBlankLine line = false) (h : Decorable (assemble cursor line rest)) :
    isDocstring line = false := by
  cases h with
  | decorator construct =>
    by_contra string
    have opens := (opensString_of_isDocstring (by simpa using string)).body cursor rest visible
    rcases opens.construct construct with ⟨-, plain⟩ | ⟨-, header⟩
    · cases plain
    · cases header
  | definition word => exact isDocstring_of_definition visible word

theorem Decorable.not_clause (h : Decorable target) (visible : isBlankLine line = false)
    (found : assemble cursor line rest = target) : isClauseLine line = false := by
  subst found
  apply isClauseLine_eq_false
  rw [firstWord_opening cursor rest visible]
  cases h with
  | decorator construct =>
    rw [firstWord_of_decorator construct]
    decide
  | definition word =>
    have other : ∀ word ∈ definitionWords, clauseKeywords.contains word = false := by decide
    exact other _ word

theorem Stepped.of_decorator
    (h : Stepped script (assemble cursor line rest) (statementOf script (assemble cursor line rest) line after) pass step
      pass')
    (visible : isBlankLine line = false) (construct : classify (assemble cursor line rest).body = .ok .decorator) :
    step = ⟨[.code (assemble cursor line rest).text (assemble cursor line rest).first (assemble cursor line rest).last],
      script.indent.measure line, []⟩ := by
  rw [← body_statementOf script cursor rest after visible] at construct
  cases h with
  | decorator => rfl
  | kept found other | replaced found other =>
    cases construct.symm.trans found
    exact absurd rfl other

theorem Stepped.heralds
    (h : Stepped script (assemble cursor line rest) (statementOf script (assemble cursor line rest) line after) pass step
      pass')
    (visible : isBlankLine line = false) (decorable : Decorable (assemble cursor line rest)) :
    ∃ before own back, Heralds script (assemble cursor line rest) before own ∧ step.pieces = before ++ own :: back := by
  cases decorable with
  | decorator construct => exact ⟨[], _, [], .decorator construct, by rw [h.of_decorator visible construct]; rfl⟩
  | definition word compound unmocked =>
    have other : classify (assemble cursor line rest).body ≠ .ok .decorator := by
      intro construct
      rw [firstWord_of_decorator construct] at word
      exact absurd word (by decide)
    obtain ⟨site, between, dispatched⟩ := h.emitted visible other
    obtain ⟨kind, found⟩ := dispatched.classified
    have same := firstWord_emitted script.callLimit site word
    obtain ⟨back, pieces⟩ := dispatched.definition (compound.emitted (closed_mockValue_none unmocked) found) (same ▸ word)
    exact ⟨_, _, back, .definition word, pieces⟩

end Target

namespace Leg

variable {leg : Leg script}

theorem Stands.decorator (stands : leg.Stands line rest) (visits : leg.visits = ⟨source, none⟩ :: later)
    (construct : classify source.body = .ok .decorator) :
    ∃ next : Leg script, next.visits = later ∧ next.lines = behind source rest ∧ next.cursor = source.last + 1 ∧
      next.level = script.indent.measure source.opening ∧ next.pending = [] ∧
      leg.pieces = leg.pending ++ .code source.text source.first source.last :: next.pieces := by
  obtain ⟨next, step, takes, behind⟩ := stands.takes visits
  obtain rfl := takes.found
  obtain ⟨_, stepped⟩ := takes.stepped
  have opening : (assemble leg.cursor line rest).opening = line := headD_lines_assemble ..
  have level := takes.level
  have pending := takes.pending
  have pieces := takes.pieces
  rw [stepped.of_decorator stands.visible construct] at level pending pieces
  refine ⟨next, behind, takes.lines, takes.cursor, opening.symm ▸ level, pending, ?_⟩
  rw [pieces, (Decorable.decorator construct).not_string stands.visible, placePrologue]
  simp

theorem Stands.heralds (stands : leg.Stands line rest) (visits : leg.visits = ⟨target, none⟩ :: later)
    (decorable : Decorable target) :
    ∃ before own back, Heralds script target before own ∧ leg.pieces = leg.pending ++ before ++ own :: back := by
  obtain ⟨next, step, takes, -⟩ := stands.takes visits
  obtain rfl := takes.found
  obtain ⟨_, stepped⟩ := takes.stepped
  obtain ⟨before, own, back, heralds, pieces⟩ := stepped.heralds stands.visible decorable
  refine ⟨before, own, back ++ next.pieces, heralds, ?_⟩
  rw [takes.pieces, decorable.not_string stands.visible, placePrologue, pieces]
  simp

end Leg

/-- What stands between a decorator and the next decorator or the definition behind it: what the blank lines become
and what is put before the definition. Only where the block of a mocked function ends in a decorator, the call of
that function is there as well. -/
theorem decorated {pieces : List Piece} {pass : Pass} {earlier later : List Visit} {source target : LogicalStatement}
    (done : wholeScript script = .ok (pieces, pass))
    (visited : visits script 0 script.lines = earlier ++ ⟨source, none⟩ :: ⟨target, none⟩ :: later)
    (decorator : classify source.body = .ok .decorator) (blank : BlankBetween script source target)
    (decorable : Decorable target) :
    ∃ front gap before own back, Heralds script target before own ∧
      pieces = front ++ .code source.text source.first source.last :: (gap ++ before ++ own :: back) ∧
      (gap = Leg.between script (script.indent.measure source.opening) source target ∨
        Leg.EndsBetween earlier ⟨source, none⟩ ⟨target, none⟩ ∧
          ∃ level shadow arguments origin, .injected level (.callMock shadow arguments) origin ∈ gap) ∧
      (firstWord target.body = "class" →
        before = [.injected (script.indent.measure target.opening) (.probe none) target.first]) := by
  have whole : (Leg.ofScript done).visits = earlier ++ ⟨source, none⟩ :: ⟨target, none⟩ :: later := visited
  cases (Leg.ofScript done).joins whole with
  | together part stands visits inside =>
    obtain ⟨next, behind, lines, cursor, level, pending, own⟩ := stands.decorator visits decorator
    obtain ⟨other, first, others, there, visits', reaches⟩ := Leg.reach stands (stands.found visits)
      (by rw [lines, List.append_nil]) cursor behind blank decorable.not_clause
    obtain ⟨before, header, back, heralds, pieces'⟩ := there.heralds visits' decorable
    obtain ⟨ahead, after, whole⟩ := inside
    have gap : next.pieces = Leg.between script (script.indent.measure source.opening) source target ++ before ++
        header :: back := by
      cases reaches with
      | atOnce near pending' reached =>
        rw [reached, pieces', pending', pending, Leg.between_of_near _ near]
      | behindBlanks far pending' reached =>
        rw [reached, pieces', pending', pending, level]
        simp
    refine ⟨ahead ++ part.pending, _, before, header, back ++ after, heralds, ?_, .inl rfl, heralds.of_class⟩
    refine whole.symm.trans ?_
    rw [own, gap]
    simp
  | apart part other front between back stands visits others whole called ends _ _ _ _ =>
    obtain ⟨next, -, -, -, -, -, own⟩ := stands.decorator visits decorator
    obtain ⟨reached, skipped, first, rest, skips⟩ := other.skip (by simp [others])
    obtain ⟨before, header, tail, heralds, pieces'⟩ := skips.stands.heralds (skips.visits.trans others) decorable
    obtain ⟨lead, led⟩ : ∃ lead, other.pieces = lead ++ reached.pieces := ⟨_, skips.pieces⟩
    obtain ⟨level, shadow, arguments, origin, mem⟩ := called
    refine ⟨front ++ part.pending, next.pieces ++ between ++ lead ++ reached.pending, before, header, tail ++ back,
      heralds, ?_, .inr ⟨ends, level, shadow, arguments, origin, by simp [mem]⟩, heralds.of_class⟩
    refine whole.trans ?_
    rw [own, led, pieces']
    simp only [List.append_assoc, List.cons_append]

def wrappedClass : Script :=
  ⟨["@f(", "  1)", "", "class B: pass"].map String.toList, .standard, 100, []⟩

theorem decorated_class :
    ∃ pieces pass front own back, wholeScript wrappedClass = .ok (pieces, pass) ∧
      pieces = front ++ .code "@f(\n  1)".toList 0 1 ::
        ([.injected 0 (.probe none) 2] ++ [.injected 0 (.probe none) 3] ++ own :: back) := by
  have runs : (wholeScript wrappedClass).isOk = true := by decide +kernel
  obtain ⟨⟨pieces, pass⟩, done⟩ := exists_ok runs
  have visited : visits wrappedClass 0 wrappedClass.lines =
      [] ++ ⟨⟨0, 1, ["@f(".toList], "  1)".toList, .closed, .closed⟩, none⟩ ::
        ⟨⟨3, 3, [], "class B: pass".toList, .closed, .closed⟩, none⟩ :: [] := by decide +kernel
  have blank (position : Int) (above : 1 < position) (below : position < 3) :
      ∀ line ∈ wrappedClass.lines[position.toNat]?, isBlankLine line = true := by
    obtain rfl : position = 2 := by omega
    decide
  obtain ⟨front, gap, before, own, back, -, whole, gaps, ofClass⟩ := decorated done visited (by decide +kernel) blank
    (.definition (by decide +kernel) ⟨.inlineCompound 7, by decide +kernel, .inr ⟨7, rfl⟩⟩ (by decide +kernel))
  have probed := ofClass (by decide +kernel)
  rcases gaps with gap_ | ⟨⟨_, mem, -⟩, -⟩
  · refine ⟨pieces, pass, front, own, back, done, whole.trans ?_⟩
    rw [gap_, probed]
    rfl
  · cases mem

/-- A probe parts a decorator from a class and from a function with type parameters, and one for a blank line parts a
decorator over two lines from a function. -/
theorem decorators_parted :
    instrumentedTexts "@a\nclass B:\n    pass" =
        some (["@a", "print(\"1:\")", "class B:", "    pass"].map String.toList) ∧
      instrumentedTexts "@a\ndef f[T](x):\n    pass" =
        some (["@a", "print(\"1:\")", "def f[T](x):", "    pass"].map String.toList) ∧
      instrumentedTexts "@a(\n1)\n\ndef f():\n    pass" =
        some (["@a(", "1)", "print(\"2:\")", "def f():", "    pass"].map String.toList) := by
  refine ⟨?_, ?_, ?_⟩ <;> decide +kernel

end LineProbe.Instrument
