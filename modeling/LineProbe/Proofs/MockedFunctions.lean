import LineProbe.Proofs.Headers
import LineProbe.Proofs.HushedSteps

/-!
# Mocked functions without blocking calls

A mocked function is emitted as it stands and once more under another name.
-/

namespace LineProbe

open Text

/-! ## Headers with comments -/

theorem Mode.next_hash {mode : Mode} (closed : mode.carry = .closed) : mode.next '#' = .comment := by
  cases mode with
  | code | comment => rfl
  | quoteTwo quote => cases quote <;> rfl
  | _ => cases closed

theorem silent_comment (oneLine : '\n' ∉ text) : Silent behind previous .comment text := by
  intro part rest whole _ _ settled
  rw [Mode.run_comment fun mem => oneLine (by rw [whole]; exact List.mem_append_left _ mem)] at settled
  cases settled

theorem Calm.append_comment (h : Calm behind (text ++ [c])) (notBlank : isBlankChar c = false) (other : joins c = false)
    (blank : ∀ d ∈ blanks, isBlankChar d) (oneLine : '\n' ∉ comment)
    (kind : comment = [] ∨ ∃ more, comment = '#' :: more) : Calm behind' (text ++ c :: blanks ++ comment) := by
  have ended : (Mode.code.run (text ++ c :: blanks)).carry = .closed := by
    rw [List.append_cons text c blanks, Mode.run_append, Mode.carry_run_blanks blank]
    exact h.ended
  have front : Silent (comment ++ behind') none .code (text ++ c :: blanks) := h.silent.of_mark notBlank other blank
  rcases kind with rfl | ⟨more, rfl⟩
  · rw [List.append_nil]
    exact ⟨front, ended⟩
  · rw [List.mem_cons, not_or] at oneLine
    refine ⟨silent_append.2 ⟨front, silent_cons.2 ⟨fun _ _ opens => absurd opens.word_head (by decide), ?_⟩⟩, ?_⟩
    · rw [Mode.next_hash ended]
      exact silent_comment oneLine.2
    · rw [Mode.run_append, Mode.run_cons, Mode.next_hash ended, Mode.run_comment oneLine.2]
      rfl

namespace Instrument

open Construct

/-! ## Names of functions -/

theorem afterDefName?_append {blanks name behind : Text} (filled : blanks ≠ []) (blank : ∀ c ∈ blanks, isBlankChar c)
    (first : Starts name) (ends : ∀ c ∈ behind.head?, isWordChar c = false) :
    afterDefName? name ("def".toList ++ (blanks ++ (name ++ behind))) = some behind := by
  have def_ : afterSpacedWord? "def" ("def".toList ++ (blanks ++ (name ++ behind))) = some (name ++ behind) := by
    obtain ⟨c, rest, rfl, notBlank⟩ := first
    exact afterSpacedWord?_append filled blank (by rintro _ ⟨⟩; exact notBlank)
  have last : wordCharAt (name ++ behind) name.length = false := by
    rw [wordCharAt, List.getElem?_append_right (Nat.le_refl _), Nat.sub_self, ← List.head?_eq_getElem?]
    cases behind with
    | nil => rfl
    | cons c behind => exact ends c rfl
  rw [afterDefName?, def_]
  simp [startsWith, last]

theorem renameDef_eq {name renamed indentation body behind : Text} (blank : ∀ c ∈ indentation, isBlankChar c)
    (alone : previous.any isWordChar = false) (found : afterDefName? name body = some behind) :
    renameDef name renamed previous (indentation ++ body) = indentation ++ ("def ".toList ++ renamed ++ behind) := by
  induction indentation generalizing previous with
  | nil =>
    cases body with
    | nil => cases found
    | cons c body =>
      rw [List.nil_append, renameDef]
      simp only [alone, found, Bool.false_eq_true, if_false, List.nil_append]
  | cons c indentation ih =>
    rw [List.forall_mem_cons] at blank
    have unspaced : afterSpacedWord? "def" (c :: (indentation ++ body)) = none := by
      by_contra found
      obtain ⟨rest, found⟩ := Option.ne_none_iff_exists'.1 found
      obtain ⟨_, whole, -, -⟩ := afterSpacedWord?_spec found
      obtain ⟨rfl, -⟩ := List.cons.inj whole
      exact absurd blank.1 (by decide)
    have other : afterDefName? name (c :: (indentation ++ body)) = none := by
      rw [afterDefName?, unspaced]
      rfl
    rw [List.cons_append, renameDef]
    simp only [alone, other, Bool.false_eq_true, if_false, List.cons_append, List.cons.injEq, true_and]
    exact ih blank.2 (isWordChar_of_isBlankChar blank.1)

structure DefShape (body name behind : Text) : Prop where
  whole : ∃ blanks, body = "def".toList ++ (blanks ++ (name ++ behind)) ∧ blanks ≠ [] ∧
    ∀ c ∈ blanks, isBlankChar c = true
  first : Starts name
  plain : Plain name
  stops : Stops behind
  ends : endsWithChar behind ':' = true

namespace DefShape

variable {body name behind : Text}

theorem endsWithChar_append (h : DefShape body name behind) (front : Text) : endsWithChar (front ++ behind) ':' := by
  have nonempty : behind ≠ [] := by
    rintro rfl
    cases h.ends
  rw [Text.endsWithChar_append _ nonempty]
  exact h.ends

theorem last (h : DefShape body name behind) : endsWithChar body ':' := by
  obtain ⟨blanks, whole, -⟩ := h.whole
  rw [whole, ← List.append_assoc, ← List.append_assoc]
  exact h.endsWithChar_append _

end DefShape

theorem MocksDef.shape (mocks : MocksDef st mocked) : ∃ behind, DefShape st.body mocked.name behind := by
  cases classify_ok mocks.construct with
  | @defHeader _ inner _ _ parts _ =>
    obtain ⟨front, close, behind, header, whole, -, closes, ends⟩ := defParts?_iff_shape.1 parts
    cases header with
    | @intro lead _ blanks leads plain named blank =>
      have word (c : Char) (mem : c ∈ mocked.name) : isWordChar c :=
        isWordChar_of_mem_nameAtStart (plain.symm ▸ mem)
      cases leads with
      | async filled blank' _ _ =>
        refine absurd ?_ mocks.sync
        rw [whole, List.append_assoc, List.append_assoc]
        exact firstWord_spaced (by decide) filled blank'
      | @sync blanks' filled blank' =>
        refine ⟨blanks ++ '(' :: (inner ++ close :: behind), ⟨blanks', by rw [whole]; simp, filled, blank'⟩, ?_,
          fun c mem => ⟨isQuiet_of_isTargetChar (by simp [isTargetChar, word c mem]), ?_⟩,
          (opensParen_blanks blank).stops, ?_⟩
        · obtain ⟨c, name, first⟩ := List.exists_cons_of_ne_nil named
          exact ⟨c, name, first, isBlankChar_of_isWordChar (word c (by rw [first]; exact List.mem_cons_self))⟩
        · rintro rfl
          exact absurd (word _ mem) (by decide)
        · rw [← endsWithChar_closer (blanks ++ '(' :: inner) closes] at ends
          simpa using ends

/-! ## Headers -/

theorem calm_headerText (indented : ∀ c ∈ indentation, isBlankChar c) (calm : Calm [] body)
    (last : endsWithChar body ':') (blank : ∀ c ∈ blanks, isBlankChar c) (oneLine : '\n' ∉ comment)
    (kind : comment = [] ∨ ∃ more, comment = '#' :: more) :
    Calm ['('] (indentation ++ body ++ (blanks ++ comment)) := by
  obtain ⟨front, rfl⟩ := endsWithChar_eq_true last
  have text : indentation ++ (front ++ [':']) ++ (blanks ++ comment) = indentation ++ (front ++ ':' :: blanks ++ comment) := by
    simp
  rw [text]
  exact (calm.append_comment (by decide) (by decide) blank oneLine kind).indented indented

theorem DefShape.calm_renamed {body name behind : Text} (shape : DefShape body name behind) (calm : Calm [] body)
    (temp : Temp) : Calm [] ("def ".toList ++ temp.name ++ behind) := by
  obtain ⟨blanks, whole, -, blank⟩ := shape.whole
  obtain ⟨stem, digit, named, isDigit⟩ := exists_last_tempName temp
  have plain : Plain ("def ".toList ++ temp.name) := plain_append.2 ⟨by decide, plain_tempName temp⟩
  have quiet : ∀ c ∈ "def".toList ++ (blanks ++ name), isQuiet c := by
    simp only [List.forall_mem_append]
    exact ⟨by decide, fun c mem => isQuiet_of_isBlankChar (blank c mem), fun c mem => (shape.plain c mem).1⟩
  have cut : body = ("def".toList ++ (blanks ++ name)) ++ behind := by
    rw [whole]
    simp
  obtain ⟨silent, ended⟩ := calm
  rw [cut, silent_append, Mode.run_quiet_code quiet] at silent
  rw [cut, Mode.run_append, Mode.run_quiet_code quiet] at ended
  refine ⟨silent_append.2 ⟨?_, ?_⟩, ?_⟩
  · rw [List.append_nil]
    exact (silent_tempName (by decide) temp).before shape.stops
  · rw [Mode.run_quiet_code fun c mem => (plain c mem).1]
    refine silent.2.behind_of fun apart => ?_
    rw [named, ← List.append_assoc, List.getLast?_concat] at apart
    simp [joins, isWordChar_of_isDigit isDigit] at apart
  · rw [Mode.run_append, Mode.run_quiet_code fun c mem => (plain c mem).1]
    exact ended

theorem DefShape.not_isWordChar {body name behind : Text} (shape : DefShape body name behind) (tail : Text) :
    ∀ c ∈ (behind ++ tail).head?, isWordChar c = false := by
  obtain ⟨front, last⟩ := endsWithChar_eq_true shape.ends
  intro c first
  have apart := shape.stops c (by rw [last] at first ⊢; simpa using first)
  exact (Bool.or_eq_false_iff.1 apart).1

theorem DefShape.renameDef_eq {indentation body name behind : Text} (shape : DefShape body name behind)
    (indented : ∀ c ∈ indentation, isBlankChar c) (renamed tail : Text) :
    renameDef name renamed none (indentation ++ body ++ tail) =
      indentation ++ ("def ".toList ++ renamed ++ behind) ++ tail := by
  obtain ⟨blanks, whole, filled, blank⟩ := shape.whole
  have found := afterDefName?_append filled blank shape.first (shape.not_isWordChar tail)
  have text : body ++ tail = "def".toList ++ (blanks ++ (name ++ (behind ++ tail))) := by
    rw [whole]
    simp
  rw [List.append_assoc, text, Instrument.renameDef_eq indented rfl found]
  simp

/-! ## Whole functions -/

theorem hushes_mockedPrologue (mocks : MocksDef st mocked) : Hushes config (mockedPrologue st mocked) :=
  (hushes_parameters (plain_params mocks.construct)).append (hushes_interior st _)

theorem hushes_writtenBody (written : hasBody config block st.level → Calm [] (joinLines block))
    (shut : Shut (next.text config)) (later : Hushes config (next :: rest)) :
    Hushes config (writtenBody config st block ++ next :: rest) := by
  unfold writtenBody
  split
  · next filled =>
    have nonempty : block ≠ [] := by
      rintro rfl
      cases filled
    rw [Hushes, List.map_append, List.map_map]
    change Hushed (block.zipIdx.map Prod.fst ++ (next :: rest).map (Piece.text config))
    rw [List.zipIdx_map_fst]
    exact .followed nonempty (written filled) shut later
  · exact Hushes.append (.inject trivial .nil) later

theorem hushes_mockedPieces {pass : Pass} (guarded : Guards st (st.level + 1) pass guards pass')
    (header : Calm ['('] source.text)
    (renamed : Calm ['('] (renameDef mocked.name shadow.name none source.text))
    (shut : Shut (renameDef mocked.name shadow.name none source.text))
    (written : hasBody config block st.level → Calm [] (joinLines block)) (inner : Hushes config body)
    (arguments : Calm [] mocked.arguments) :
    Hushes config (mockedPieces config source st block mocked shadow guards body) := by
  have call : Calm ['('] (Piece.text config (st.inject st.level (.callMock shadow mocked.arguments))) :=
    (calm_callMock shadow arguments st.first).indented fun c mem => (blank_render config st.level c mem).1
  have front : Hushes config (.header source.text st.first st.last :: guards) := .cons header guarded.hushes
  have copy : Hushes config (.header (renameDef mocked.name shadow.name none source.text) st.first st.last :: body) :=
    .cons renamed inner
  have back := hushes_writtenBody written (show Shut (Piece.text config (.header _ st.first st.last)) from shut) copy
  rw [mockedPieces, List.append_assoc (.header source.text st.first st.last :: guards)]
  exact (front.append back).append (.cons call .nil)

end Instrument

end LineProbe
