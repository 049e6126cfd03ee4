import LineProbe.Proofs.Hushed
import LineProbe.Proofs.PassedThrough

/-!
# Statements without blocking calls

What becomes of a statement is cut from its body at code characters: the value behind an equals sign, the header
before a colon, the arguments of a `print`.
-/

namespace LineProbe

open Text

/-! ## Cutting at a code character -/

structure Divides (code front : Text) (c : Char) (rest : Text) : Prop where
  whole : code = front ++ c :: rest
  reads : (Mode.code.run front).readsCode c = true
  ground : depthOf (Mode.code.depthRun 0 front) c = 0

namespace Divides

theorem of_quiet (whole : code = front ++ c :: rest) (quiet : ∀ d ∈ front, isQuiet d)
    (other : c ≠ '#' ∧ c ≠ '\'' ∧ c ≠ '"') : Divides code front c rest := by
  refine ⟨whole, ?_, ?_⟩
  · rw [Mode.run_quiet_code quiet]
    exact Mode.readsCode_of_settled rfl other
  · rw [(Mode.depthRun_quiet rfl quiet 0).2, depthOf, Nat.zero_sub, ite_self]

theorem of_firstTop (found : firstTop test none .code 0 code = some front.length) (whole : code = front ++ c :: rest) :
    Divides code front c rest := by
  obtain ⟨part, d, behind, cut, length, reads, ground, -⟩ := firstTop_eq_some found
  obtain ⟨rfl, same⟩ := List.append_inj (whole.symm.trans cut) length.symm
  obtain ⟨rfl, -⟩ := List.cons.inj same
  exact ⟨whole, reads, ground⟩

theorem take (h : Divides code front c rest) : code.take (front.length + 1) = front ++ [c] := by
  rw [h.whole, List.append_cons front c rest]
  exact List.take_left' (by simp)

theorem drop (h : Divides code front c rest) : code.drop (front.length + 1) = rest := by
  rw [h.whole, List.append_cons front c rest]
  exact List.drop_left' (by simp)

theorem mode_run (h : Divides code front c rest) : Mode.code.run (front ++ [c]) = .code := by
  rw [Mode.run_append, Mode.run_cons, Mode.next_of_readsCode h.reads, Mode.run_nil]

theorem calm_front (h : Divides code front c rest) (calm : Calm behind code) : Calm (rest ++ behind) (front ++ [c]) := by
  have silent := calm.silent
  rw [h.whole, List.append_cons front c rest, silent_append] at silent
  refine ⟨silent.1, ?_⟩
  rw [h.mode_run]
  rfl

theorem silent_rest (h : Divides code front c rest) (calm : Calm behind code) : Silent behind (some c) .code rest := by
  have silent := calm.silent
  rw [h.whole, List.append_cons front c rest, silent_append, h.mode_run, List.getLast?_concat] at silent
  exact silent.2

theorem ended_rest (h : Divides code front c rest) (calm : Calm behind code) :
    (Mode.code.run rest).carry = .closed := by
  have ended := calm.ended
  rwa [h.whole, List.append_cons front c rest, Mode.run_append, h.mode_run] at ended

theorem calm_rest (h : Divides code front c rest) (calm : Calm behind code)
    (apart : joins c = false ∨ ∀ d ∈ rest.head?, isWordChar d = false) : Calm behind rest := by
  refine ⟨?_, h.ended_rest calm⟩
  rcases apart with other | first
  · exact (h.silent_rest calm).behind_of fun _ => other
  · exact (h.silent_rest calm).of_head first

end Divides

namespace Calm

theorem trimLeft (h : Calm behind text) : Calm behind (trimLeft text) := by
  rwa [← leadingBlanks_append_trimLeft text, calm_blanks_append fun c => isBlankChar_of_mem_leadingBlanks] at h

theorem trim (h : Calm behind text) : Calm [] (trim text) := by
  obtain ⟨blanks, trimmed, blank⟩ := trimRight_append_blanks (Text.trimLeft text)
  obtain ⟨silent, ended⟩ := h.trimLeft
  rw [← trimmed, silent_append] at silent
  rw [← trimmed, Mode.run_append, Mode.carry_run_blanks blank] at ended
  exact ⟨silent.1.alone, ended⟩

end Calm

/-! ## The parts of a body -/

variable {st : Statement}

namespace Construct

theorem indexOf_append (front rest : Text) : indexOf (front ++ rest) rest = front.length := by
  rw [indexOf, List.length_append, Nat.add_sub_cancel]

theorem indexOf_behind (front : Text) (c : Char) (rest : Text) : indexOf (front ++ c :: rest) rest = front.length + 1 := by
  rw [List.append_cons front c rest, indexOf_append, List.length_append, List.length_singleton]

theorem divides_assigned (h : classify code = .ok kind)
    (assigns : kind = .assignment target valueStart ∨ kind = .annotated target valueStart) :
    ∃ front value, Divides code front '=' value ∧ front.length + 1 = valueStart := by
  rcases assigns with rfl | rfl
  · cases classify_ok h with
    | assignment found =>
      obtain ⟨left, value, target, equals, -, same⟩ := assignment?_iff.1 found
      cases same
      obtain ⟨trimmed, -⟩ := afterEquals?_iff.1 equals
      obtain ⟨front, rfl, targeted⟩ := targeted_of_afterTarget? target trimmed (by decide)
      exact ⟨front, value, .of_quiet rfl (fun d mem => isQuiet_of_isTargetChar (targeted.chars d mem)) (by decide),
        (indexOf_behind front '=' value).symm⟩
  · cases classify_ok h with
    | annotated found =>
      obtain ⟨left, behind, equals, colon, located, -, -, same⟩ := annotated?_iff.1 found
      cases same
      obtain ⟨target, trimmed, -⟩ := afterAnnotationColon?_iff.1 colon
      obtain ⟨front, rfl, targeted⟩ := targeted_of_afterTarget? target trimmed (by decide)
      have start : '=' ∉ (front ++ ':' :: behind).take (indexOf (front ++ ':' :: behind) behind) := by
        rw [indexOf_behind, show front ++ ':' :: behind = (front ++ [':']) ++ behind by simp,
          List.take_left' (by simp), List.mem_append, not_or]
        exact ⟨fun mem => absurd (targeted.chars _ mem) (by decide), by decide⟩
      rw [findChar?_eq start] at located
      obtain ⟨part, c, value, whole, rfl, reads, ground, passes⟩ := firstTop_eq_some located
      obtain rfl : c = '=' := by simpa [charTest] using passes
      exact ⟨part, value, ⟨whole, reads, ground⟩, rfl⟩

theorem divides_augmented (h : classify code = .ok (.augmented target operator valueStart)) :
    ∃ front value, Divides code front '=' value ∧ front.length + 1 = valueStart := by
  cases classify_ok h with
  | augmented found =>
    obtain ⟨front, value, whole, length, quiet⟩ := augmented?_shape found
    rw [List.forall_mem_append] at quiet
    exact ⟨front, value, .of_quiet (by rw [whole]; simp) quiet.1 (by decide), by rw [← length]; simp⟩

theorem not_word_of_takeWhile {text : Text} (h : text.takeWhile isWordChar = []) :
    ∀ c ∈ text.head?, isWordChar c = false := by
  cases text with
  | nil => rintro c ⟨⟩
  | cons d text =>
    rintro c ⟨⟩
    by_contra word
    rw [List.takeWhile_cons, if_pos (by simpa using word)] at h
    cases h

theorem divides_returning (h : firstWord code = "return") :
    Divides code "retur".toList 'n' (code.drop 6) ∧ ∀ c ∈ (code.drop 6).head?, isWordChar c = false := by
  obtain ⟨rest, whole, dropped⟩ := returning_shape h
  rw [dropped]
  refine ⟨.of_quiet whole (by decide +kernel) (by decide), not_word_of_takeWhile ?_⟩
  have letters : ∀ c ∈ "eturn".toList, isWordChar c := by decide +kernel
  have word : firstWord ("return".toList ++ rest) = 'r' :: ("eturn".toList ++ rest).takeWhile isWordChar := rfl
  rw [whole, word, List.takeWhile_append_of_pos letters] at h
  exact List.append_cancel_left ((List.cons.inj h).2.trans (List.append_nil _).symm)

theorem LoopShape.divides (shape : LoopShape code part body) :
    Divides code (part ++ ['i']) 'n' (body ++ [':']) ∧ ∀ c ∈ (body ++ [':']).head?, isWordChar c = false := by
  have before : Divides code part 'i' ('n' :: (body ++ [':'])) := .of_firstTop shape.found shape.whole
  have ground : depthOf (Mode.code.depthRun 0 (part ++ ['i'])) 'n' = 0 := by
    rw [Mode.depthRun_append, Mode.depthRun, Mode.depthNext, if_pos before.reads, before.ground]
    rfl
  refine ⟨⟨by rw [shape.whole]; simp, by rw [before.mode_run]; rfl, ground⟩, not_word_of_takeWhile ?_⟩
  obtain ⟨part', c, rest, whole, length, -, -, passes⟩ := firstTop_eq_some shape.found
  obtain ⟨rfl, same⟩ := List.append_inj (shape.whole.symm.trans whole) length.symm
  obtain ⟨rfl, rfl⟩ := List.cons.inj same
  obtain ⟨-, word, -⟩ := wordTest_in_iff.1 passes
  rw [List.takeWhile_cons, if_pos (by decide)] at word
  exact (List.cons.inj word).2

theorem LoopShape.calm_iterable (shape : LoopShape code part body) (calm : Calm [] code) : Calm [] (trim body) := by
  obtain ⟨divides, first⟩ := shape.divides
  obtain ⟨silent, ended⟩ := divides.calm_rest calm (.inr first)
  rw [silent_append] at silent
  rw [Mode.run_append, Mode.carry_run (by decide) (by decide)] at ended
  exact Calm.trim ⟨silent.1, ended⟩

theorem InlineShape.divides (shape : InlineShape code head body) : Divides code head ':' body :=
  .of_firstTop shape.found shape.whole

end Construct

/-! ## What becomes of the parts -/

theorem Divides.calm_append (h : Divides code front c rest) (calm : Calm behind code) (notBlank : isBlankChar c = false)
    (other : joins c = false) (last : Calm behind' text) : Calm behind' (front ++ [c] ++ text) := by
  refine ⟨silent_append.2 ⟨((h.calm_front calm).of_mark notBlank other).silent, ?_⟩, ?_⟩
  · rw [h.mode_run]
    exact last.silent.of_none
  · rw [Mode.run_append, h.mode_run]
    exact last.ended

theorem calm_nil (behind : Text) : Calm behind [] :=
  ⟨silent_nil _ _ _, rfl⟩

theorem Calm.append_closer (h : Calm [] text) (closes : isCloser close) (blank : ∀ c ∈ blanks, isBlankChar c) :
    Calm behind (text ++ close :: blanks) := by
  have facts : joins close = false ∧ isBlankChar close = false ∧ close ≠ '(' ∧ close ≠ '\'' ∧ close ≠ '"' := by
    simp only [isCloser, Bool.or_eq_true, beq_iff_eq] at closes
    rcases closes with (rfl | rfl) | rfl <;> decide
  obtain ⟨other, notBlank, notParen, single, double⟩ := facts
  have follows : ¬ OpensParen (close :: []) := by
    rw [OpensParen, trimLeft_of_head (by rintro c ⟨⟩; exact notBlank)]
    simpa using notParen
  have front : Silent [] none .code (text ++ [close]) := by
    refine silent_append.2 ⟨h.silent.inert (by rintro c ⟨⟩; exact other) follows, silent_cons.2 ⟨?_, silent_nil _ _ _⟩⟩
    intro _ _ opens
    rw [opens.joins_head] at other
    cases other
  refine ⟨front.of_mark notBlank other blank, ?_⟩
  rw [Mode.run_append, Mode.run_cons, Mode.carry_run_blanks blank]
  exact Mode.carry_next h.ended single double

namespace Instrument

open Construct

variable {pass : Pass}

theorem calm_assigned (construct : classify st.body = .ok kind)
    (assigns : kind = .assignment target valueStart ∨ kind = .annotated target valueStart) (calm : Calm [] st.body)
    (mocks : ∀ mock ∈ st.mock, Calm [] mock) : Calm [] (st.body.take valueStart ++ assignedValue st valueStart) := by
  cases given : st.mock with
  | none =>
    rw [assignedValue, given, List.take_append_drop]
    exact calm
  | some mock =>
    obtain ⟨front, value, divides, rfl⟩ := divides_assigned construct assigns
    have replaced : Calm [] ([' '] ++ '(' :: (mock ++ [')'])) := (mocks mock given).parenthesized.indented (by decide)
    rw [assignedValue, given, divides.take]
    exact divides.calm_append calm (by decide) (by decide) replaced

/-! ### Calls of `print` -/

theorem calm_tag_append (line : Int) (calm : Calm [] text) (stops : Stops text) (other : ¬ OpensParen text) :
    Calm [] (Probe.tag line ++ text) := by
  have reached : Mode.code.run (Probe.tag line) = .code := (Reader.takes_tag (Int.le_refl 0) line).mode_run
  refine ⟨silent_append.2 ⟨?_, ?_⟩, ?_⟩
  · rw [List.append_nil]
    exact silent_of_no_paren (paren_not_mem_tag line) stops other
  · rw [reached]
    exact calm.silent.of_none
  · rw [Mode.run_append, reached]
    exact calm.ended

theorem Splices.calm (h : Splices line arguments text) (calm : Calm [] arguments) : Calm [] text := by
  have comma_ (text : Text) : Stops (',' :: text) ∧ ¬ OpensParen (',' :: text) := by
    refine ⟨by rintro c ⟨⟩; decide, ?_⟩
    rw [OpensParen, trimLeft_of_head (by simp; decide)]
    simp
  have last {first rest : Text} (calm : Calm [] (first ++ rest)) (cut : CommaCut first rest) :
      Calm [] rest ∧ Stops rest ∧ ¬ OpensParen rest := by
    cases rest with
    | nil => exact ⟨calm_nil [], by rintro c ⟨⟩, by simp [OpensParen, trimLeft]⟩
    | cons c others =>
      obtain rfl := cut.comma c rfl
      have divides : Divides (first ++ ',' :: others) first ',' others :=
        ⟨rfl, Mode.readsCode_of_settled cut.closed.mode_settled (by decide), by rw [cut.closed.depthRun]; rfl⟩
      refine ⟨⟨silent_cons.2 ⟨fun _ _ opens => ?_, divides.silent_rest calm⟩, divides.ended_rest calm⟩, comma_ others⟩
      exact absurd opens.word_head (by decide)
  cases h with
  | replaced cut =>
    obtain ⟨rest, stops, other⟩ := last calm cut
    exact calm_tag_append line rest stops other
  | inserted =>
    have front : Calm [] ([] ++ ',' :: [' '] ++ _) := calm.after_mark (by decide) (by decide) (by decide) (by decide)
    exact calm_tag_append line front (comma_ _).1 (comma_ _).2
  | @shown first rest cut =>
    have silent := calm.silent
    rw [silent_append] at silent
    have shut : Shut " + str".toList := ⟨'+', " str".toList, by decide +kernel, by decide⟩
    refine calm_tag_append line ⟨silent_append.2 ⟨?_, ?_⟩, ?_⟩ (by rintro c ⟨⟩; decide) ?_
    · exact silent_call (silent_of_calls (by decide +kernel)) (by decide) silent.1.alone.of_none
    · rw [cut.takes.mode_run]
      exact (last calm cut).1.silent.of_none
    · rw [Mode.run_append, cut.takes.mode_run]
      exact (last calm cut).1.ended
    · rw [List.append_assoc]
      exact shut.not_opensParen _

theorem calm_splicedBody (calm : Calm [] st.body) (found : print? st.body = some (.printCall openParen closeParen)) :
    Calm ['('] (splicedBody st openParen closeParen) := by
  obtain ⟨before, inner, close, behind, whole, rfl, rfl, chars, closed, closes, blank⟩ := print?_shape found
  have divides : Divides st.body before '(' (inner ++ close :: behind) :=
    .of_quiet whole (fun c mem => isQuiet_of_isTargetChar (chars c mem)) (by decide)
  have arguments : Calm [] inner := by
    have silent := (divides.calm_rest calm (.inl (by decide))).silent
    rw [silent_append] at silent
    refine ⟨silent.1.alone, ?_⟩
    have settled := closed.settled
    rw [Reader.mode_run] at settled
    exact Mode.carry_of_settled settled
  have last : Calm ['('] (splicedArguments st.first inner ++ close :: behind) :=
    ((splices_splicedArguments st.first closed).calm arguments).append_closer closes blank
  rw [splicedBody_eq whole]
  have := divides.calm_append calm (by decide) (by decide) last
  simpa using this

/-! ## Pieces -/

def Hushes (config : IndentConfig) (pieces : List Piece) : Prop :=
  Hushed (pieces.map (Piece.text config))

namespace Hushes

theorem nil : Hushes config [] :=
  Hushed.nil

theorem append (h : Hushes config first) (h' : Hushes config last) : Hushes config (first ++ last) := by
  rw [Hushes, List.map_append]
  exact Hushed.append h h'

theorem cons {piece : Piece} {rest : List Piece} (calm : Calm ['('] (piece.text config)) (later : Hushes config rest) :
    Hushes config (piece :: rest) :=
  Hushed.cons calm later

theorem before_probe (calm : Calm [] (piece.text config))
    (later : Hushes config (.injected level (.probe payload) origin :: rest)) :
    Hushes config (piece :: .injected level (.probe payload) origin :: rest) :=
  Hushed.before calm (shut_probe config level payload origin) later

theorem inject (plain : what.Plain) (later : Hushes config rest) : Hushes config (st.inject level what :: rest) :=
  .cons (calm_injected config level plain st.first) later

theorem of_calm (h : ∀ piece ∈ pieces, Calm ['('] (piece.text config)) : Hushes config pieces := by
  refine Hushed.of_calm fun text mem => ?_
  obtain ⟨piece, known, rfl⟩ := List.mem_map.1 mem
  exact h piece known

end Hushes

theorem Guards.hushes (h : Guards st level pass guards pass') : Hushes config guards := by
  refine .of_calm fun piece mem => ?_
  obtain ⟨site, limit, rfl⟩ := h.mem mem
  exact calm_injected config level (show Injection.Plain (.limitGuard site limit) from trivial) st.first

theorem plain_bareProbe : Injection.Plain (.probe none) := by
  rintro _ ⟨⟩

theorem plain_showingProbe (h : LineProbe.Plain payload) : Injection.Plain (.probe (some payload)) := by
  rintro _ ⟨⟩
  exact h

theorem hushes_interior (st : Statement) (level : Nat) : Hushes config (st.interior level) := by
  unfold Statement.interior
  split
  · refine .of_calm fun piece mem => ?_
    obtain ⟨offset, -, rfl⟩ := List.mem_map.1 mem
    exact calm_injected config level plain_bareProbe _
  · exact .nil

theorem hushes_marks (st : Statement) (keys : List Int) :
    Hushes config (keys.map fun key => st.inject st.level (.mark key)) := by
  refine .of_calm fun piece mem => ?_
  obtain ⟨key, -, rfl⟩ := List.mem_map.1 mem
  exact calm_injected config st.level (show Injection.Plain (.mark key) from trivial) st.first

theorem hushes_parameters {params : List Text} (h : ∀ param ∈ params, LineProbe.Plain param) :
    Hushes config (params.map fun name => st.inject level (.parameter name)) := by
  refine .of_calm fun piece mem => ?_
  obtain ⟨name, known, rfl⟩ := List.mem_map.1 mem
  exact calm_injected config level (show Injection.Plain (.parameter name) from h name known) st.first

theorem hushes_orPass (h : Hushes config pieces) : Hushes config (orPass st level pieces) := by
  unfold orPass
  split
  · exact .inject trivial .nil
  · exact h

theorem calm_own {behind : Text} (blank : ∀ c ∈ st.indentation, isBlankChar c) (calm : Calm behind body) :
    Calm behind ((st.own body).text config) :=
  calm.indented blank

theorem calm_bound (blank : ∀ c ∈ st.indentation, isBlankChar c) (temp : Temp) (calm : Calm [] value) :
    Calm ['('] ((st.bind temp ("(" ++ value ++ ")")).text config) := by
  have bound : Calm ['('] (temp.name ++ " = ".toList ++ '(' :: (value ++ [')'])) := calm.parenthesized.binding temp
  exact bound.indented blank

/-! ## Headers -/

theorem calm_heading (blank : ∀ c ∈ st.indentation, isBlankChar c) (calm : Calm [] st.body)
    (last : endsWithChar st.body ':') : Calm ['('] (st.heading.text config) := by
  obtain ⟨front, whole⟩ := endsWithChar_eq_true last
  rw [whole] at calm
  have header : Calm ['('] (front ++ [':']) := calm.of_mark (by decide) (by decide)
  rw [← whole] at header
  exact header.indented blank

theorem calm_loopHead (blank : ∀ c ∈ st.indentation, isBlankChar c) (calm : Calm [] st.body)
    (shape : LoopShape st.body part body) (temp : Temp) (line : Int) :
    Calm ['('] (Piece.text config (.loopHead st.indentation (part ++ "in ".toList) temp line)) := by
  obtain ⟨divides, -⟩ := shape.divides
  have whole : part ++ "in ".toList ++ temp.name ++ [':'] =
      (part ++ ['i'] ++ ['n']) ++ ((' ' :: temp.name) ++ [':']) := by
    simp
  have plain : Plain ((' ' :: temp.name) ++ [':']) :=
    plain_append.2 ⟨plain_cons.2 ⟨by decide, plain_tempName temp⟩, by decide⟩
  have tail : Silent ['('] (some 'n') .code ((' ' :: temp.name) ++ [':']) :=
    (silent_plain (paren_not_mem_of_plain plain)).of_mark (by decide) (by decide) (List.forall_mem_nil _)
  have shut : Shut ([' '] ++ (temp.name ++ [':'])) := by
    obtain ⟨c, rest, named, notBlank⟩ := starts_tempName temp
    refine Shut.blanks_append ⟨c, rest ++ [':'], ?_, ?_⟩ (by decide)
    · rw [named]
      exact trimLeft_of_head (by rintro d ⟨⟩; exact notBlank)
    · rintro rfl
      exact paren_not_mem_of_plain (plain_tempName temp) (by rw [named]; exact List.mem_cons_self)
  have front := divides.calm_front calm
  refine Calm.indented ⟨?_, ?_⟩ blank
  · rw [whole, silent_append, divides.mode_run, List.getLast?_concat]
    exact ⟨front.silent.inert (by rintro c ⟨⟩; decide) (shut.not_opensParen _), tail⟩
  · rw [whole, Mode.run_append, divides.mode_run, Mode.run_quiet_code fun c mem => (plain c mem).1]
    rfl

theorem Heads.hushes
    (h : Heads script st construct pass parts pass') (blank : ∀ c ∈ st.indentation, isBlankChar c)
    (calm : Calm [] st.body) (last : endsWithChar st.body ':')
    (loop : ∀ head iterable, construct = .forHeader head iterable → forHeader? st.body = some (.forHeader head iterable))
    (named : ∀ name params, construct = .defHeader name params → ∀ param ∈ params, LineProbe.Plain param) :
    Hushes config (parts.before ++ parts.header) ∧ Hushes config parts.prologue := by
  have heading : Hushes config [st.heading] := .cons (calm_heading blank calm last) .nil
  have inside : Hushes config (st.interior (st.level + 1)) := hushes_interior st _
  cases h with
  | @loop head iterable keys pass pass' guards marked guarded =>
    obtain ⟨part, body, shape, rfl, rfl⟩ := forHeader?_iff_shape.1 (loop _ _ rfl)
    have bound (temp : Temp) : Calm [] ((st.bind temp (trim body)).text config) :=
      ((shape.calm_iterable calm).binding temp).indented blank
    refine ⟨Hushes.append ?_ (.cons (calm_loopHead blank calm shape _ _) .nil), ?_⟩
    · exact (hushes_marks st _).append (.before_probe (bound _) (.inject (plain_showingProbe (plain_tempName _)) .nil))
    · refine (Hushes.append ?_ guarded.hushes).append inside
      exact .inject trivial .nil
  | definition marked guarded =>
    exact ⟨(hushes_marks st _).append heading, ((hushes_parameters (named _ _ rfl)).append guarded.hushes).append inside⟩
  | block marked guarded =>
    refine ⟨((hushes_marks st _).append ?_).append heading, (Hushes.append ?_ guarded.hushes).append inside⟩
    · split
      · exact .inject plain_bareProbe .nil
      · exact .nil
    · split
      · exact .inject trivial .nil
      · exact .nil

/-! ## Statements -/

theorem calm_getD {mock : Option Text} (mocks : ∀ text ∈ mock, Calm [] text) (calm : Calm [] value) :
    Calm [] (mock.getD value) := by
  cases mock with
  | none => exact calm
  | some text => exact mocks text rfl

theorem calm_plainBody (calm : Calm [] st.body) (mocks : ∀ mock ∈ st.mock, Calm [] mock) : Calm [] (plainBody st) := by
  unfold plainBody
  split
  · exact calm
  · next mock given =>
    split
    · exact calm
    · exact (mocks mock given).parenthesized

theorem Dispatched.hushes (h : Dispatched script st pass step pass') (blank : ∀ c ∈ st.indentation, isBlankChar c)
    (calm : Calm [] st.body) (mocks : ∀ mock ∈ st.mock, Calm [] mock)
    (passed : passesThrough st.body → Calm ['('] st.body) :
    Hushes script.indent step.pieces ∧ Hushes script.indent step.prologue := by
  induction h with
  | @augmented st pass pass' target operator valueStart guards construct guarded =>
    obtain ⟨front, value, divides, rfl⟩ := divides_augmented construct
    obtain ⟨target, operator, named⟩ := plain_augmented construct
    have given : Calm [] (st.mock.getD (trim (st.body.drop (front.length + 1)))) := by
      rw [divides.drop]
      exact calm_getD mocks (divides.calm_rest calm (.inl (by decide))).trim
    refine ⟨(guarded.hushes.append (.cons (calm_bound blank _ given) (.inject ?_ (.inject ?_ .nil)))).append
      (hushes_interior st _), .nil⟩
    · refine plain_showingProbe ?_
      simp only [plain_append]
      exact ⟨⟨⟨⟨target, by decide⟩, operator⟩, by decide⟩, plain_tempName _⟩
    · exact ⟨target, operator, named⟩
  | @assigned st pass pass' kind target valueStart guards construct assigns guarded =>
    refine ⟨(guarded.hushes.append (.before_probe (calm_own blank (calm_assigned construct assigns calm mocks))
      (.inject ?_ .nil))).append (hushes_interior st _), .nil⟩
    exact plain_showingProbe (plain_assigned construct assigns)
  | @printed st pass pass' openParen closeParen guards construct guarded =>
    cases classify_ok construct with
    | printCall found =>
      exact ⟨(guarded.hushes.append (.cons (calm_own blank (calm_splicedBody calm found)) .nil)).append
        (hushes_interior st _), .nil⟩
  | @returned st pass pass' value guards construct given guarded =>
    cases classify_ok construct with
    | returning word =>
      obtain ⟨divides, first⟩ := divides_returning word
      have value := calm_getD mocks (divides.calm_rest calm (.inr first)).trim
      refine ⟨(guarded.hushes.append (hushes_interior st _)).append
        (.cons (calm_bound blank _ value) (.inject (plain_showingProbe (plain_tempName _)) ?_)), .nil⟩
      exact .inject trivial .nil
  | @ended st pass pass' value guards construct empty guarded =>
    refine ⟨(guarded.hushes.append (hushes_interior st _)).append (.inject plain_bareProbe ?_), .nil⟩
    exact .inject trivial .nil
  | opened construct opens heads body =>
    exact heads.hushes blank calm (endsWithChar_of_opensBlock construct opens)
      (fun head iterable same => forHeader?_of_classify (same ▸ construct))
      fun name params same => plain_params (same ▸ construct)
  | openedEmpty construct opens heads empty =>
    obtain ⟨before, prologue⟩ := heads.hushes blank calm (endsWithChar_of_opensBlock construct opens)
      (fun head iterable same => forHeader?_of_classify (same ▸ construct))
      fun name params same => plain_params (same ▸ construct)
    exact ⟨before.append (hushes_orPass prologue), .nil⟩
  | @inline st pass between pass' colon kind parts inner construct header heads body ih =>
    cases classify_ok construct with
    | inlineCompound _ _ found =>
      obtain ⟨head, rest, shape, rfl⟩ := inlineCompound?_iff_shape.1 found
      have divides := shape.divides
      have headBody : (st.inlineHead head.length).body = head ++ [':'] := divides.take
      have innerBody : (st.inlineBody script.indent head.length).body = trimLeft rest := by
        rw [← divides.drop]
        rfl
      obtain ⟨before, prologue⟩ := heads.hushes blank (by rw [headBody]; exact (divides.calm_front calm).alone)
        (by rw [headBody]; exact endsWithChar_concat head ':')
        (fun loop iterable same => by
          rcases inlineConstruct_cases (st.inlineHead head.length).body kind with kept | block
          · exact forHeader?_of_classify ((kept.symm.trans same) ▸ header)
          · cases block.symm.trans same)
        fun name params same => plain_params_inlineConstruct header same
      obtain ⟨pieces, last⟩ := ih (fun c mem => (blank_render _ _ c mem).1)
        (by rw [innerBody]; exact (divides.calm_rest calm (.inl (by decide))).trimLeft) mocks (by
          rw [innerBody, ← divides.drop, ← passesThrough_inline construct, divides.drop]
          exact fun through => (divides.calm_rest (passed through) (.inl (by decide))).trimLeft)
      exact ⟨((before.append prologue).append pieces).append last, .nil⟩
  | @ignored st pass pass' keyword guards construct guarded =>
    exact ⟨(guarded.hushes.append (hushes_interior st _)).append
      (.cons (calm_own blank (passed (passesThrough_ignorable construct))) .nil), .nil⟩
  | @plain st pass pass' kind guards construct simple guarded =>
    exact ⟨(guarded.hushes.append (.before_probe (calm_own blank (calm_plainBody calm mocks))
      (.inject plain_bareProbe .nil))).append (hushes_interior st _), .nil⟩

end Instrument

end LineProbe
