import LineProbe.Proofs.Clauses

/-!
# Chains of clauses

A clause ends the block before it, so the last statement before its header must be deeper than the header.
-/

namespace LineProbe

open Text

/-! ## Statements that follow each other -/

variable {source : LogicalStatement}

theorem exists_of_statementsFrom_cons (here : LinesFrom script index lines)
    (h : statementsFrom script index lines = source :: later) :
    ∃ skipped line rest, lines = skipped ++ line :: rest ∧ (∀ line ∈ skipped, isBlankLine line) ∧
      isBlankLine line = false ∧ LinesFrom script (index + skipped.length) (line :: rest) ∧
      assemble (index + skipped.length) line rest = source ∧
      statementsFrom script (source.last + 1) (rest.drop source.extent) = later := by
  induction lines generalizing index with
  | nil => simp at h
  | cons line rest ih =>
    cases blank : isBlankLine line with
    | true =>
      rw [statementsFrom_blank blank] at h
      obtain ⟨skipped, first, others, rfl, blanks, visible, there, found, left⟩ := ih here.next h
      have moved : index + ((line :: skipped).length : Int) = index + 1 + skipped.length := by
        rw [List.length_cons]
        omega
      rw [← moved] at there found
      exact ⟨line :: skipped, first, others, rfl, List.forall_mem_cons.2 ⟨blank, blanks⟩, visible, there, found, left⟩
    | false =>
      rw [statementsFrom_visible here blank, List.cons.injEq] at h
      obtain ⟨rfl, rfl⟩ := h
      exact ⟨[], line, rest, rfl, by simp, blank, by simpa using here, by simp, rfl⟩

def Piece.level (config : IndentConfig) (piece : Piece) : Nat :=
  (piece.placed config).level config

theorem Piece.At.level {piece : Piece} {level : Nat} (h : piece.At config level) : piece.level config = level := by
  rw [Piece.level, h]
  exact config.measure_render level

namespace Instrument

open Construct

variable {script : Script} {pass : Pass}

theorem nextCode?_blanks_append (blank : ∀ line ∈ skipped, isBlankLine line) (visible : isBlankLine line = false) :
    nextCode? (skipped ++ line :: rest) = some line := by
  rw [nextCode?, List.find?_append, List.find?_eq_none.2 (by simpa using blank)]
  simp [visible]

theorem visits_blanks_append (cursor : Int) (blank : ∀ line ∈ skipped, isBlankLine line) :
    visits script cursor (skipped ++ lines) = visits script (cursor + skipped.length) lines := by
  induction skipped generalizing cursor with
  | nil => simp
  | cons line skipped ih =>
    rw [List.forall_mem_cons] at blank
    rw [List.cons_append, visits_skipped (.inr blank.1), ih _ blank.2, List.length_cons]
    congr 1
    omega

/-- Hoisted statements are on one line, at the margin, and no compound statements. -/
def Script.HoistsSimple (script : Script) : Prop :=
  ∀ source ∈ logicalStatements script.lines, script.hoisted.contains source.first = true →
    source.last = source.first ∧ script.indent.measure source.opening = 0 ∧ ¬ IsCompound source.body

/-! ## What is pending -/

theorem Dispatched.prologue_at (h : Dispatched script st pass step pass') (indented : Indented script.indent st) :
    step.prologue = [] ∨ hasBody script.indent st.after st.level ∧
      ∀ piece ∈ step.prologue, piece.At script.indent (st.level + 1) := by
  cases h with
  | opened construct opens heads body =>
    have fits : Spot.Fits ⟨st.level, false⟩ st.level := Nat.le_refl _
    refine .inr ⟨body, (heads.laid indented (fun name params same => ?_) (fun head iterable same => ?_) fits).2⟩
    · exact plain_params (same ▸ construct)
    · exact starts_forHeader (same ▸ construct) indented.starts
  | _ => exact .inl rfl

theorem Stepped.prologue_at
    (h : Stepped script (assemble cursor line rest) (statementOf script (assemble cursor line rest) line after) pass step pass')
    (visible : isBlankLine line = false)
    (indentation : leadingBlanks line = script.indent.render (script.indent.measure line)) :
    step.prologue = [] ∨ hasBody script.indent after (script.indent.measure line) ∧
      ∀ piece ∈ step.prologue, piece.At script.indent (script.indent.measure line + 1) := by
  have indented : Indented script.indent (statementOf script (assemble cursor line rest) line after) :=
    indented_statementOf visible indentation
  cases h with
  | decorator => exact .inl rfl
  | kept _ _ _ dispatched => exact dispatched.prologue_at indented
  | replaced _ _ _ dispatched => exact dispatched.prologue_at (indented_replaced indented _)

theorem Stepped.ready
    (h : Stepped script (assemble cursor line rest)
      (statementOf script (assemble cursor line rest) line (behind (assemble cursor line rest) rest)) pass step pass')
    (visible : isBlankLine line = false)
    (indentation : leadingBlanks line = script.indent.render (script.indent.measure line))
    (here : LinesFrom script.lines cursor (line :: rest))
    (found : statementsFrom script.lines ((assemble cursor line rest).last + 1) (behind (assemble cursor line rest) rest) =
      next :: later)
    (bounded : script.indent.measure next.opening ≤ script.indent.measure line + 1) :
    ∀ piece ∈ step.prologue, piece.At script.indent (script.indent.measure next.opening) := by
  rcases h.prologue_at visible indentation with none_ | ⟨body, each⟩
  · simp [none_]
  · obtain ⟨skipped, first, others, lines, blank, visible', -, same, -⟩ := exists_of_statementsFrom_cons here.behind found
    have opening : next.opening = first := by rw [← same, opening_assemble]
    have deeper : script.indent.measure line < script.indent.measure first := by
      have code : nextCode? (behind (assemble cursor line rest) rest) = some first :=
        (congrArg nextCode? lines).trans (nextCode?_blanks_append blank visible')
      rw [hasBody, code, Option.any_some, decide_eq_true_eq] at body
      exact body
    rw [opening] at bounded
    rw [opening, Nat.le_antisymm bounded deeper]
    exact each

theorem wellIndented_head (here : LinesFrom script.lines index lines)
    (found : statementsFrom script.lines index lines = source :: later)
    (indented : WellIndented script.indent ceiling ((source :: later).map LogicalStatement.placed)) :
    script.indent.measure source.opening ≤ ceiling := by
  obtain ⟨skipped, line, rest, -, -, visible, -, rfl, -⟩ := exists_of_statementsFrom_cons here found
  rw [opening_assemble]
  exact (wellIndented_assemble visible indented).2.1

namespace Leg

structure Sound (leg : Leg script) (ceiling : Nat) : Prop where
  here : LinesFrom script.lines leg.cursor leg.lines
  simple : ∀ source ∈ statementsFrom script.lines leg.cursor leg.lines,
    script.hoisted.contains source.first = true → source.last = source.first
  unmocked : ∀ source ∈ statementsFrom script.lines leg.cursor leg.lines, mocksDef source = false
  indented : WellIndented script.indent ceiling
    ((statementsFrom script.lines leg.cursor leg.lines).map LogicalStatement.placed)
  ready : ∀ source ∈ (statementsFrom script.lines leg.cursor leg.lines).head?, ∀ piece ∈ leg.pending,
    piece.At script.indent (script.indent.measure source.opening)

namespace Sound

variable {leg next : Leg script}

theorem statements (sound : leg.Sound ceiling) (lines : leg.lines = line :: rest) (visible : isBlankLine line = false) :
    statementsFrom script.lines leg.cursor leg.lines = assemble leg.cursor line rest ::
      statementsFrom script.lines ((assemble leg.cursor line rest).last + 1)
        (Instrument.behind (assemble leg.cursor line rest) rest) := by
  have here := sound.here
  rw [lines] at here ⊢
  exact statementsFrom_visible here visible

theorem indentation (sound : leg.Sound ceiling) (lines : leg.lines = line :: rest) (visible : isBlankLine line = false) :
    leadingBlanks line = script.indent.render (script.indent.measure line) := by
  have indented := sound.indented
  rw [sound.statements lines visible] at indented
  exact (wellIndented_assemble visible indented).1

theorem blank (sound : leg.Sound ceiling) (lines : leg.lines = line :: rest) (blank : isBlankLine line)
    (nextLines : next.lines = rest) (cursor : next.cursor = leg.cursor + 1) (pending : next.pending = []) :
    statementsFrom script.lines leg.cursor leg.lines = statementsFrom script.lines next.cursor next.lines ∧
      next.Sound ceiling := by
  obtain ⟨here, simple, unmocked, indented, -⟩ := sound
  have same : statementsFrom script.lines leg.cursor leg.lines = statementsFrom script.lines next.cursor next.lines := by
    rw [lines, statementsFrom_blank blank, nextLines, cursor]
  rw [same] at simple unmocked indented
  rw [lines] at here
  refine ⟨same, ?_, simple, unmocked, indented, by simp [pending]⟩
  rw [nextLines, cursor]
  exact here.next

theorem behind (sound : leg.Sound ceiling) (lines : leg.lines = line :: rest)
    (visible : isBlankLine line = false) (nextLines : next.lines = Instrument.behind (assemble leg.cursor line rest) rest)
    (cursor : next.cursor = (assemble leg.cursor line rest).last + 1)
    (pending : next.pending ≠ [] → ∃ step after, Stepped script (assemble leg.cursor line rest) (statementOf script
      (assemble leg.cursor line rest) line (Instrument.behind (assemble leg.cursor line rest) rest)) leg.pass step after ∧
      next.pending = step.prologue) :
    ∃ ceiling, next.Sound ceiling := by
  have all := sound.statements lines visible
  have indentation := sound.indentation lines visible
  obtain ⟨here, simple, unmocked, indented, -⟩ := sound
  rw [all] at simple unmocked indented
  rw [List.forall_mem_cons] at simple unmocked
  rw [← nextLines, ← cursor] at simple unmocked indented
  obtain ⟨-, -, indented⟩ := wellIndented_assemble visible indented
  rw [lines] at here
  have here' : LinesFrom script.lines next.cursor next.lines := by
    rw [nextLines, cursor]
    exact here.behind
  refine ⟨_, here', simple.2, unmocked.2, indented, ?_⟩
  intro first head piece mem
  obtain ⟨others, cut⟩ := List.head?_eq_some_iff.1 head
  obtain ⟨_, _, stepped, same⟩ := pending (List.ne_nil_of_mem mem)
  have bounded := wellIndented_head here' cut (cut ▸ indented)
  have atMost := Bool.toNat_le (assemble leg.cursor line rest).isHeader
  rw [nextLines, cursor] at cut
  exact stepped.ready visible indentation here cut (by omega) piece (same ▸ mem)

end Sound

theorem arrive (leg : Leg script) (sound : leg.Sound ceiling)
    (found : statementsFrom script.lines leg.cursor leg.lines = earlier ++ source :: later)
    (kept : script.hoisted.contains source.first = false) :
    ∃ (part : Leg script) (line : Text) (rest : List Text) (ceiling : Nat) (front : List Piece),
      part.Stands line rest ∧ part.Sound ceiling ∧
      statementsFrom script.lines part.cursor part.lines = source :: later ∧ leg.pieces = front ++ part.pieces := by
  induction size : leg.lines.length using Nat.strongRecOn generalizing leg ceiling earlier with
  | ind size_ ih =>
    subst size
    cases lines : leg.lines with
    | nil => simp [lines] at found
    | cons line rest =>
      rw [lines] at ih
      have goOn {next : Leg script} {ceiling : Nat} {earlier : List LogicalStatement} {front : List Piece}
          (shorter : next.lines.length ≤ rest.length) (sound : next.Sound ceiling)
          (found : statementsFrom script.lines next.cursor next.lines = earlier ++ source :: later)
          (whole : leg.pieces = front ++ next.pieces) :
          ∃ (part : Leg script) (line : Text) (rest : List Text) (ceiling : Nat) (front : List Piece),
            part.Stands line rest ∧ part.Sound ceiling ∧
            statementsFrom script.lines part.cursor part.lines = source :: later ∧ leg.pieces = front ++ part.pieces := by
        obtain ⟨part, line, rest, ceiling, ahead, stands, sound, found, pieces⟩ :=
          ih _ (Nat.lt_succ_of_le shorter) next sound found rfl
        exact ⟨part, line, rest, ceiling, front ++ ahead, stands, sound, found, by rw [whole, pieces, List.append_assoc]⟩
      cases leg.begins lines with
      | skips next skipped nextLines cursor _ _ pending _ pieces =>
        cases blank : isBlankLine line with
        | true =>
          obtain ⟨same, sound'⟩ := sound.blank lines blank nextLines cursor pending
          exact goOn (by simp [nextLines]) sound' (same ▸ found) pieces
        | false =>
          -- A hoisted statement is on one line, so the leg goes on where the next statement may begin.
          have hoisted : script.hoisted.contains leg.cursor := by simpa [blank] using skipped
          have first : (assemble leg.cursor line rest).first = leg.cursor := by rw [assemble, first_assembleFrom]
          have all := sound.statements lines blank
          have single := sound.simple _ (all ▸ List.mem_cons_self) (first.symm ▸ hoisted)
          have last := last_assemble leg.cursor line rest
          have extent : (assemble leg.cursor line rest).extent = 0 := by
            rw [extent_assemble]
            omega
          have nextLines' : next.lines = Instrument.behind (assemble leg.cursor line rest) rest := by
            rw [nextLines, Instrument.behind, extent, List.drop_zero]
          have cursor' : next.cursor = (assemble leg.cursor line rest).last + 1 := by omega
          obtain ⟨_, sound'⟩ := sound.behind lines blank nextLines' cursor' fun some_ => absurd pending some_
          rw [found, ← nextLines', ← cursor'] at all
          rcases List.append_eq_cons_iff.1 all with ⟨rfl, same⟩ | ⟨earlier, rfl, same⟩
          · cases same
            rw [first, hoisted] at kept
            cases kept
          · exact goOn (by simp [nextLines]) sound' same pieces
      | states next stands same stepped nextLines cursor _ _ pending _ pieces =>
        subst same
        have all := sound.statements lines stands.visible
        obtain ⟨_, sound'⟩ := sound.behind lines stands.visible nextLines cursor
          fun _ => ⟨_, _, stepped, pending⟩
        rw [found, ← nextLines, ← cursor] at all
        rcases List.append_eq_cons_iff.1 all with ⟨rfl, -⟩ | ⟨earlier, rfl, same⟩
        · exact ⟨leg, line, rest, ceiling, [], stands, sound, found, rfl⟩
        · exact goOn (by simp [nextLines]) sound' same pieces
      | mocks next stands same said mocks =>
        subst same said
        have unmocked := sound.unmocked
        rw [sound.statements lines stands.visible, List.forall_mem_cons] at unmocked
        exact absurd mocks (not_mocksDef_of_unmocked stands.visible unmocked.1 _)

end Leg

/-! ## The end of a block -/

def EndsDeeper (config : IndentConfig) (level : Nat) (pieces : List Piece) : Prop :=
  ∃ front last, pieces = front ++ [last] ∧ level < last.level config

namespace EndsDeeper

theorem append (h : EndsDeeper config level pieces) (front : List Piece) : EndsDeeper config level (front ++ pieces) := by
  obtain ⟨ahead, last, rfl, deeper⟩ := h
  exact ⟨front ++ ahead, last, by rw [List.append_assoc], deeper⟩

theorem of_at {inner : Nat} (each : ∀ piece ∈ pieces, piece.At config inner) (nonempty : pieces ≠ [])
    (deeper : level < inner) :
    EndsDeeper config level pieces := by
  refine ⟨pieces.dropLast, pieces.getLast nonempty, (List.dropLast_append_getLast nonempty).symm, ?_⟩
  rw [Piece.At.level (each _ (List.getLast_mem nonempty))]
  exact deeper

theorem of_laid (laid : Laid config spot (pieces.map (Piece.placed config)) last) (nonempty : pieces ≠ [])
    (deeper : level < last.level) : EndsDeeper config level pieces := by
  induction pieces generalizing spot with
  | nil => exact absurd rfl nonempty
  | cons piece rest ih =>
    rw [List.map_cons] at laid
    generalize placed : piece.placed config = first at laid
    cases laid with
    | cons fits later =>
      by_cases empty : rest = []
      · subst empty
        cases later
        refine ⟨[], piece, rfl, ?_⟩
        rw [Piece.level, placed]
        exact deeper.trans_eq (config.measure_render _).symm
      · exact (ih later empty).append [piece]

end EndsDeeper

theorem Dispatched.pieces_ne_nil (h : Dispatched script st pass step pass') : step.pieces ≠ [] := by
  rintro none_
  have own := h.own.1.ne_nil
  rw [none_] at own
  exact own rfl

theorem Dispatched.deepens (h : Dispatched script st pass step pass') (indented : Indented script.indent st)
    (empty : hasBody script.indent st.after st.level = false) (compound : IsCompound st.body) :
    EndsDeeper script.indent st.level step.pieces := by
  have fits : Spot.Fits ⟨st.level, false⟩ st.level := Nat.le_refl _
  obtain ⟨kind, found, opens⟩ := compound
  cases h with
  | opened _ _ _ body =>
    rw [body] at empty
    cases empty
  | openedEmpty construct _ heads _ =>
    obtain ⟨-, prologue⟩ := heads.laid indented (fun name params same => plain_params (same ▸ construct))
      (fun head iterable same => starts_forHeader (same ▸ construct) indented.starts) fits
    obtain ⟨nonempty, filler⟩ := at_orPass prologue
    exact (EndsDeeper.of_at filler nonempty (Nat.lt_succ_self _)).append _
  | @inline _ _ _ _ colon _ _ inner construct header heads body =>
    have behind : hasBody script.indent (st.inlineBody script.indent colon).after
        (st.inlineBody script.indent colon).level = false := hasBody_succ empty
    have flat := body.flat (indented_inlineBody construct) behind
      (show Spot.Fits ⟨st.level, true⟩ (st.level + 1) from rfl)
    obtain ⟨level, laid, deeper, -⟩ := flat.laid
    rw [flat.prologue, List.append_nil]
    exact (EndsDeeper.of_laid laid body.pieces_ne_nil deeper).append _
  | assigned construct assigns =>
    cases found.symm.trans construct
    rcases assigns with rfl | rfl <;> simp [Construct.opensBlock] at opens
  | plain construct simple =>
    cases found.symm.trans construct
    rcases simple with rfl | rfl <;> simp [Construct.opensBlock] at opens
  | _ construct =>
    cases found.symm.trans construct
    simp [Construct.opensBlock] at opens

theorem indented_emitted
    (indentation : leadingBlanks source.opening = script.indent.render (script.indent.measure source.opening))
    (starts : Starts source.body) : Indented script.indent (emittedStatement script source after site) :=
  ⟨indentation, (substituteBlocking_enclosed ..).starts (fun _ new => new.starts) starts⟩

/-! ## Clauses behind blocks -/

/-- A clause and the statement before it, which is in the block that the clause ends or is the clause before it. -/
structure Chained (script : Script) (previous clause : LogicalStatement) : Prop where
  word : firstWord clause.body ∈ clauseKeywords
  remains : RemainsCompound script.callLimit clause
  previous : script.indent.measure clause.opening < script.indent.measure previous.opening ∨
    script.indent.measure clause.opening = script.indent.measure previous.opening ∧
      RemainsCompound script.callLimit previous ∧ isDocstring previous.opening = false

theorem Leg.Takes.ends {leg next : Leg script} (takes : leg.Takes next line rest previous step)
    (chained : Chained script previous clause) (visible : isBlankLine line = false)
    (indentation : leadingBlanks line = script.indent.render (script.indent.measure line))
    (pending : ∀ piece ∈ leg.pending, piece.At script.indent (script.indent.measure line))
    (empty : hasBody script.indent (behind previous rest) (script.indent.measure line) = false) :
    EndsDeeper script.indent (script.indent.measure clause.opening)
        (placePrologue (isDocstring line) leg.pending step.pieces) ∧ step.prologue = [] := by
  obtain rfl := takes.found
  obtain ⟨_, stepped⟩ := takes.stepped
  have opening : (assemble leg.cursor line rest).opening = line := opening_assemble ..
  have fits : Spot.Fits ⟨script.indent.measure line, false⟩ (script.indent.measure line) := Nat.le_refl _
  have flat := stepped.flat visible indentation empty fits
  refine ⟨?_, flat.prologue⟩
  rcases chained.previous with deeper | ⟨same, remains, unquoted⟩
  · rw [opening] at deeper
    have nonempty : step.pieces ≠ [] := by
      rintro none_
      have own := (stepped.own visible).1.ne_nil
      rw [none_] at own
      exact own rfl
    obtain ⟨level, laid, le, -⟩ := flat.laid
    have ends := EndsDeeper.of_laid laid nonempty (Nat.lt_of_lt_of_le deeper le)
    unfold placePrologue
    split
    · by_cases none_ : leg.pending = []
      · rwa [none_, List.append_nil]
      · exact (EndsDeeper.of_at pending none_ deeper).append _
    · exact ends.append _
  · rw [opening] at unquoted
    obtain ⟨site, between, dispatched⟩ := stepped.emitted visible remains.not_decorator
    obtain ⟨kind, found⟩ := dispatched.classified
    have indented : Indented script.indent
        (emittedStatement script (assemble leg.cursor line rest) (behind (assemble leg.cursor line rest) rest) site) :=
      indented_emitted (opening.symm ▸ indentation) (starts_body_assemble leg.cursor rest visible)
    have empty' : hasBody script.indent (behind (assemble leg.cursor line rest) rest)
        (script.indent.measure (assemble leg.cursor line rest).opening) = false := by rwa [opening]
    rw [same, unquoted, placePrologue]
    exact (dispatched.deepens indented empty' (remains.stays site kind found)).append _

/-- Blank lines before a `case` whose first line has no colon, so that it does not show that a clause begins there. -/
structure Overlooked (script : Script) (previous clause : LogicalStatement) : Prop where
  word : firstWord clause.body = "case"
  uncoloned : findColon? (trim clause.opening) = none
  other : previous.endsAsDecorator = false
  blank : ∃ position, previous.last < position ∧ position < clause.first ∧ script.hoisted.contains position = false

theorem isClauseLine_assemble (visible : isBlankLine line = false)
    (word : firstWord (assemble cursor line rest).body ∈ clauseKeywords) :
    isClauseLine line = false ↔
      firstWord (assemble cursor line rest).body = "case" ∧ findColon? (trim line) = none := by
  have known : clauseKeywords.contains (firstWord (assemble cursor line rest).body) := by simpa using word
  simp only [isClauseLine, firstWord_trim, firstWord_opening cursor rest visible, known, Bool.true_and,
    Bool.or_eq_false_iff, decide_eq_false_iff_not, ne_eq, not_not, Option.isSome_eq_false_iff, Option.isNone_iff_eq_none]

theorem mem_blankProbes {level count : Nat} :
    piece ∈ blankProbes script level cursor count ↔ ∃ origin, cursor ≤ origin ∧ origin < cursor + count ∧
      script.hoisted.contains origin = false ∧ .injected level (.probe none) origin = piece := by
  constructor
  · intro mem
    obtain ⟨origin, kept, rfl⟩ := List.mem_map.1 mem
    obtain ⟨inside, kept⟩ := List.mem_filter.1 kept
    obtain ⟨offset, bound, rfl⟩ := List.mem_map.1 inside
    rw [List.mem_range] at bound
    exact ⟨cursor + offset, by omega, by omega, by simpa using kept, rfl⟩
  · rintro ⟨origin, above, below, kept, rfl⟩
    have inside : origin ∈ (List.range count).map fun (offset : Nat) => cursor + (offset : Int) :=
      List.mem_map.2 ⟨(origin - cursor).toNat, List.mem_range.2 (by omega), by omega⟩
    exact List.mem_map.2 ⟨origin, List.mem_filter.2 ⟨inside, by simpa using kept⟩, rfl⟩

theorem mem_gap :
    piece ∈ Leg.gap script level previous clause ↔ previous.endsAsDecorator = false ∧
      ∃ shown origin, reportLevel? script.indent level clause.opening = some shown ∧ previous.last < origin ∧
        origin < clause.first ∧ script.hoisted.contains origin = false ∧ .injected shown (.probe none) origin = piece := by
  have bounds (origin : Int) : previous.last + 1 ≤ origin ∧
      origin < previous.last + 1 + (clause.first - previous.last - 1).toNat ↔
      previous.last < origin ∧ origin < clause.first := by omega
  rw [Leg.gap]
  cases previous.endsAsDecorator with
  | true => simp
  | false =>
    cases found : reportLevel? script.indent level clause.opening with
    | none => simp
    | some shown =>
      simp only [Bool.false_eq_true, if_false, Option.elim_some, mem_blankProbes, ← and_assoc, bounds, true_and]
      simp

theorem gap_deeper_iff (level : Nat) (visible : isBlankLine line = false)
    (word : firstWord (assemble cursor line rest).body ∈ clauseKeywords) :
    (∀ piece ∈ Leg.gap script level previous (assemble cursor line rest),
        script.indent.measure line < piece.level script.indent) ↔
      ¬ Overlooked script previous (assemble cursor line rest) := by
  have opening : (assemble cursor line rest).opening = line := opening_assemble ..
  have seen := isClauseLine_assemble visible word
  constructor
  · rintro deeper ⟨case_, uncoloned, other, position, above, below, kept⟩
    rw [opening] at uncoloned
    have shown : reportLevel? script.indent level (assemble cursor line rest).opening =
        some (min level (script.indent.measure line)) := by
      rw [opening, reportLevel?, seen.2 ⟨case_, uncoloned⟩]
      rfl
    have low := deeper _ (mem_gap.2 ⟨other, _, position, shown, above, below, kept, rfl⟩)
    rw [at_probe.level] at low
    exact absurd low (Nat.not_lt.2 (Nat.min_le_right _ _))
  · intro seen_ piece mem
    obtain ⟨other, shown, origin, found, above, below, kept, rfl⟩ := mem_gap.1 mem
    have clause : isClauseLine line := by
      by_contra hidden
      obtain ⟨case_, uncoloned⟩ := seen.1 (by simpa using hidden)
      exact seen_ ⟨case_, opening.symm ▸ uncoloned, other, origin, above, below, kept⟩
    rw [opening, reportLevel?, clause, if_pos rfl, Option.ite_none_left_eq_some, Option.some.injEq] at found
    obtain ⟨deeper, rfl⟩ := found
    rw [at_probe.level]
    exact Nat.lt_of_not_le deeper

theorem blankBetween_of_skipped (here : LinesFrom script.lines (source.last + 1) (skipped ++ after))
    (blank : ∀ line ∈ skipped, isBlankLine line) (first : target.first = source.last + 1 + skipped.length) :
    BlankBetween script source target := by
  intro position above below line found
  have nonneg := here.nonneg
  have place : position.toNat = (source.last + 1).toNat + (position - source.last - 1).toNat := by omega
  have inside : (position - source.last - 1).toNat < skipped.length := by omega
  rw [place, ← List.getElem?_drop, here.here, List.getElem?_append_left inside] at found
  exact blank line (List.mem_of_getElem? found)

theorem Leg.Stands.chained {leg : Leg script} {previous clause : LogicalStatement} (stands : leg.Stands line rest)
    (sound : leg.Sound ceiling) (found : statementsFrom script.lines leg.cursor leg.lines = previous :: clause :: later)
    (kept : script.hoisted.contains clause.first = false) (chained : Chained script previous clause) :
    ∃ front last level site back,
      leg.pieces = front ++ last :: (Leg.gap script level previous clause ++ clauseHeader script clause site :: back) ∧
      script.indent.measure clause.opening < last.level script.indent ∧
      ((∀ piece ∈ Leg.gap script level previous clause,
        script.indent.measure clause.opening < piece.level script.indent) ↔ ¬ Overlooked script previous clause) := by
  have here : LinesFrom script.lines leg.cursor (line :: rest) := stands.lines ▸ sound.here
  have unmocked := sound.unmocked
  have pending := sound.ready previous (by rw [found]; rfl)
  have all := sound.statements stands.lines stands.visible
  rw [found] at unmocked
  rw [found, List.cons.injEq] at all
  obtain ⟨rfl, left⟩ := all
  have opening : (assemble leg.cursor line rest).opening = line := opening_assemble ..
  obtain ⟨skipped, first, others, lines, blank, visible, there, rfl, -⟩ :=
    exists_of_statementsFrom_cons here.behind left.symm
  simp only [List.forall_mem_cons] at unmocked
  have start : (assemble ((assemble leg.cursor line rest).last + 1 + skipped.length) first others).first =
      (assemble leg.cursor line rest).last + 1 + skipped.length := by rw [assemble, first_assembleFrom]
  have between := blankBetween_of_skipped (lines ▸ here.behind) blank start
  obtain ⟨visited, visits⟩ : ∃ visited, leg.visits = ⟨assemble leg.cursor line rest, none⟩ ::
      ⟨assemble ((assemble leg.cursor line rest).last + 1 + skipped.length) first others, none⟩ :: visited := by
    rw [Leg.visits, stands.lines, visits_statement stands.kept stands.visible
      (not_mocksDef_of_unmocked stands.visible unmocked.1), behind, lines, visits_blanks_append _ blank,
      visits_statement (start ▸ kept) visible (not_mocksDef_of_unmocked visible unmocked.2.1)]
    exact ⟨_, rfl⟩
  obtain ⟨next, step, takes, visits'⟩ := stands.takes visits
  have empty : hasBody script.indent (behind (assemble leg.cursor line rest) rest) (script.indent.measure line) =
      false := by
    have shallow : script.indent.measure first ≤ script.indent.measure line := by
      have before := chained.previous
      rw [opening_assemble, opening_assemble] at before
      omega
    rw [hasBody, behind, lines, nextCode?_blanks_append blank visible]
    simpa using shallow
  rw [opening] at pending
  obtain ⟨⟨front, last, body, deeper⟩, none_⟩ :=
    takes.ends chained stands.visible (sound.indentation stands.lines stands.visible) pending empty
  have cut : behind (assemble leg.cursor line rest) rest = next.lines ++ [] := by rw [takes.lines, List.append_nil]
  obtain ⟨other, _, _, there', visits'', comes⟩ := Leg.come stands rfl cut takes.cursor visits' between
  obtain ⟨site, back, stated⟩ := there'.clause visits'' chained.word chained.remains
  refine ⟨front, last, next.level, site, back, ?_, deeper, ?_⟩
  · rw [takes.pieces, body, comes.pieces, stated, comes.pending, takes.pending, none_]
    split
    · next near => simp [Leg.gap_of_near _ near]
    · simp
  · rw [opening_assemble]
    exact gap_deeper_iff next.level visible chained.word

/-- What stands before a clause: the end of the block before it, which is deeper, and reports on the blank lines between
the two. These are deeper as well, unless the clause is overlooked. -/
theorem clause_follows_block {pieces : List Piece} {pass : Pass} {earlier later : List LogicalStatement}
    {previous clause : LogicalStatement} (simple : script.HoistsSimple)
    (unmocked : ∀ source ∈ logicalStatements script.lines, mocksDef source = false)
    (indented : WellIndented script.indent 0 ((logicalStatements script.lines).map LogicalStatement.placed))
    (done : wholeScript script = .ok (pieces, pass))
    (found : logicalStatements script.lines = earlier ++ previous :: clause :: later)
    (chained : Chained script previous clause) :
    ∃ front last gap site back, pieces = front ++ last :: (gap ++ clauseHeader script clause site :: back) ∧
      script.indent.measure clause.opening < last.level script.indent ∧
      (∀ piece ∈ gap, ∃ level origin, piece = .injected level (.probe none) origin ∧ previous.last < origin ∧
        origin < clause.first) ∧
      ((∀ piece ∈ gap, script.indent.measure clause.opening < piece.level script.indent) ↔
        ¬ Overlooked script previous clause) := by
  have sound : (Leg.ofScript done).Sound 0 :=
    ⟨linesFrom_start _, fun source mem hoisted => (simple source mem hoisted).1, unmocked, indented,
      fun _ _ piece mem => absurd mem (by simp [Leg.ofScript])⟩
  have kept (source : LogicalStatement) (mem : source ∈ logicalStatements script.lines)
      (other : 0 < script.indent.measure source.opening ∨ IsCompound source.body) :
      script.hoisted.contains source.first = false := by
    by_contra hoisted
    obtain ⟨-, flush, simple⟩ := simple source mem (by simpa using hoisted)
    rcases other with deep | compound
    · omega
    · exact simple compound
  have keptPrevious : script.hoisted.contains previous.first = false := by
    refine kept previous (by simp [found]) ?_
    rcases chained.previous with deeper | ⟨-, remains, -⟩
    · exact .inl (by omega)
    · exact .inr remains.compound
  have keptClause := kept clause (by simp [found]) (.inr chained.remains.compound)
  obtain ⟨part, line, rest, ceiling, ahead, stands, sound', found', whole⟩ := Leg.arrive _ sound found keptPrevious
  obtain ⟨front, last, level, site, back, pieces', deeper, seen⟩ := stands.chained sound' found' keptClause chained
  refine ⟨ahead ++ front, last, Leg.gap script level previous clause, site, back, ?_, deeper, ?_, seen⟩
  · rw [show pieces = (Leg.ofScript done).pieces from rfl, whole, pieces', List.append_assoc]
  · intro piece mem
    obtain ⟨-, shown, origin, -, above, below, -, rfl⟩ := mem_gap.1 mem
    exact ⟨shown, origin, rfl, above, below⟩

def chainScript : Script :=
  .ofSource "if a:\n    b\n\nelse: c".toList .standard 100

def blockEnd : LogicalStatement :=
  ⟨1, 1, [], "    b".toList, .closed, .closed⟩

def elseClause : LogicalStatement :=
  ⟨3, 3, [], "else: c".toList, .closed, .closed⟩

theorem clause_follows_block_sample :
    ∃ pieces pass front last gap site back, wholeScript chainScript = .ok (pieces, pass) ∧
      pieces = front ++ last :: (gap ++ clauseHeader chainScript elseClause site :: back) ∧
      0 < last.level .standard ∧ ∀ piece ∈ gap, 0 < piece.level .standard := by
  have unhoisted : chainScript.hoisted = [] := by decide +kernel
  have simple : chainScript.HoistsSimple := by
    intro source _ hoisted
    rw [unhoisted] at hoisted
    cases hoisted
  have unmocked : ∀ source ∈ logicalStatements chainScript.lines, mocksDef source = false := by decide +kernel
  have indented : WellIndented chainScript.indent 0
      ((logicalStatements chainScript.lines).map LogicalStatement.placed) := by decide +kernel
  have runs : (wholeScript chainScript).isOk = true := by decide +kernel
  obtain ⟨⟨pieces, pass⟩, done⟩ := exists_ok runs
  have found : logicalStatements chainScript.lines =
      [⟨0, 0, [], "if a:".toList, .closed, .closed⟩] ++ blockEnd :: elseClause :: [] := by decide +kernel
  have chained : Chained chainScript blockEnd elseClause := by
    refine ⟨by decide +kernel, ?_, .inl (by decide +kernel)⟩
    exact .of_closed ⟨.inlineCompound 4, by decide +kernel, .inr ⟨_, rfl⟩⟩ (closed_mockValue_none (by decide +kernel))
  obtain ⟨front, last, gap, site, back, whole, deeper, -, seen⟩ :=
    clause_follows_block simple unmocked indented done found chained
  have level : chainScript.indent.measure elseClause.opening = 0 := by decide +kernel
  have notOverlooked : ¬ Overlooked chainScript blockEnd elseClause := by
    rintro ⟨word, -⟩
    exact absurd word (by decide +kernel)
  rw [level] at deeper seen
  exact ⟨pieces, pass, front, last, gap, site, back, done, whole, deeper, seen.2 notOverlooked⟩

/-- The report on the blank line stands at the level of the `case` behind it, whose pattern goes on behind its first
line. -/
theorem clause_cut_off :
    instrumentedTexts "match x:\n    case 1:\n        a\n\n    case (2,\n      3):\n        b" =
      some (["print(\"0:\")", "match x:", "    case 1:", "        a", "        print(\"2:\")", "    print(\"3:\")",
        "    case (2,", "      3):", "        print(\"5:\")", "        b", "        print(\"6:\")"].map
        String.toList) := by
  decide +kernel

end Instrument

end LineProbe
