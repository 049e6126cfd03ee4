import Mathlib.Data.List.Chain
import LineProbe.Proofs.Loops
import LineProbe.Proofs.Placement

/-!
# The blocks of an instrumented script

An instrumented script is indented as its script is.
-/

namespace LineProbe

open Text

/-! ## Headers with blocking calls -/

namespace Construct

theorem recognised_of_opensBlock (h : classify code = .ok kind) (opens : kind.opensBlock) :
    decorator? code = none ∧ augmented? code = none ∧ assignment? code = none ∧ annotated? code = none ∧
      returning? code = none := by
  rw [classify_eq] at h
  split at h
  · next early =>
    cases h
    simp only [early?, Option.or_eq_some_iff, Option.or_eq_none_iff] at early
    rcases early with (((((h | ⟨-, h⟩) | ⟨-, h⟩) | ⟨-, h⟩) | ⟨-, h⟩) | ⟨-, h⟩) | ⟨before, h | ⟨-, h⟩⟩
    · obtain ⟨-, rfl⟩ := decorator?_iff.1 h
      cases opens
    · obtain ⟨_, _, _, _, -, -, -, -, rfl⟩ := augmented?_iff.1 h
      cases opens
    · obtain ⟨_, _, -, -, -, rfl⟩ := assignment?_iff.1 h
      cases opens
    · obtain ⟨_, _, _, -, -, -, -, rfl⟩ := annotated?_iff.1 h
      cases opens
    · obtain ⟨-, -, -, rfl⟩ := annotationOnly?_iff.1 h
      cases opens
    · obtain ⟨_, -, -, -, -, rfl⟩ := print?_iff.1 h
      cases opens
    · obtain ⟨⟨⟨⟨⟨decorator, augmented⟩, assignment⟩, annotated⟩, -⟩, -⟩ := before
      refine ⟨decorator, augmented, assignment, annotated, ?_⟩
      obtain ⟨_, -, -, -, -, -, rfl⟩ := forHeader?_iff.1 h
      obtain ⟨part, body, shape, -, -⟩ := forHeader?_iff_shape.1 h
      rw [returning?, shape.firstWord, if_neg (by decide)]
    · obtain ⟨-, rfl⟩ := returning?_iff.1 h
      cases opens
  · next early =>
    simp only [early?, Option.or_eq_none_iff] at early
    obtain ⟨⟨⟨⟨⟨⟨decorator, augmented⟩, assignment⟩, annotated⟩, -⟩, -⟩, -, returning⟩ := early
    exact ⟨decorator, augmented, assignment, annotated, returning⟩

theorem endsWithChar_of_print? (h : print? code = some (.printCall openParen closeParen)) :
    endsWithChar code ':' = false := by
  obtain ⟨before, inner, close, behind, rfl, -, -, -, -, closes, blank⟩ := print?_shape h
  by_contra ends
  obtain ⟨front, last⟩ := endsWithChar_eq_true (by simpa using ends)
  rw [show before ++ '(' :: (inner ++ close :: behind) = (before ++ '(' :: inner) ++ close :: behind by simp] at last
  have same := congrArg List.getLast? last
  rw [List.getLast?_append, List.getLast?_concat, List.getLast?_cons] at same
  cases found : behind.getLast? with
  | none =>
    rw [found] at same
    cases same
    cases closes
  | some c =>
    rw [found] at same
    cases same
    exact absurd (blank _ (List.mem_of_getLast? found)) (by decide)

theorem opensBlock_swapped (h : Swapped Operand false .code code code') (found : classify code = .ok kind)
    (opens : kind.opensBlock) (found' : classify code' = .ok kind') : kind'.opensBlock := by
  obtain ⟨decorator, augmented, assignment, annotated, returning⟩ := recognised_of_opensBlock found opens
  have last : endsWithChar code' ':' := by
    rw [← h.endsWithChar (fun _ => Operand.getLast?) (by decide), endsWithChar_of_opensBlock found opens]
  cases classify_ok found' with
  | forHeader | defHeader | blockHeader => rfl
  | decorator known =>
    obtain ⟨at_, -⟩ := decorator?_iff.1 known
    rw [← h.head?_eq_some_iff (by decide) (by decide)] at at_
    simp [decorator?, at_] at decorator
  | augmented known =>
    have := augmented?_swapped h.symm (by rw [known]; rfl)
    simp [augmented] at this
  | assignment known =>
    have := assignment?_swapped h.symm (by rw [known]; rfl)
    simp [assignment] at this
  | annotated known =>
    have := annotated?_swapped h.symm (by rw [known]; rfl)
    simp [annotated] at this
  | declared known =>
    obtain ⟨-, -, other, -⟩ := annotationOnly?_iff.1 known
    simp [last] at other
  | printCall known => simp [endsWithChar_of_print? known] at last
  | returning word =>
    have word := h.symm.firstWord_eq word (by decide)
    simp [returning?, word] at returning
  | inlineCompound _ other | ignorable other | plain _ other => simp [last] at other

end Construct

/-! ## Statements of the script -/

namespace LogicalStatement

def isHeader (source : LogicalStatement) : Bool :=
  match Construct.classify source.body with
  | .ok kind => kind.opensBlock
  | .error _ => false

def placed (source : LogicalStatement) : Placed :=
  ⟨leadingBlanks (source.lines.headD []), source.isHeader⟩

theorem isHeader_iff {source : LogicalStatement} :
    source.isHeader ↔ ∃ kind, Construct.classify source.body = .ok kind ∧ kind.opensBlock := by
  unfold isHeader
  cases Construct.classify source.body <;> simp

end LogicalStatement

/-- A header that is still one when its blocking calls are replaced. -/
def LogicalStatement.StaysHeader (callLimit : Int) (source : LogicalStatement) : Prop :=
  source.isHeader = true → hasBlockingCall source.body = true → ∀ site kind,
    Construct.classify (substituteBlocking source.body source.first source.directives callLimit site).1 = .ok kind →
      kind.opensBlock = true

theorem LogicalStatement.staysHeader_of_closed (callLimit : Int) {source : LogicalStatement}
    (closed : Closed (mockValue source.directives)) : source.StaysHeader callLimit := by
  intro header _ site kind found'
  obtain ⟨kind, found, opens⟩ := isHeader_iff.1 header
  have swapped := substituteBlocking_swapped source.body source.first callLimit site closed
  exact Construct.opensBlock_swapped swapped.operands found opens found'

theorem measure_of_visible {config : IndentConfig} (visible : isBlankLine line = false)
    (h : leadingBlanks line = config.render level) : config.measure line = level := by
  obtain ⟨c, rest, whole, notBlank, -⟩ := exists_first_of_visible visible
  rw [whole, h, config.measure_render_append, config.measure_eq_zero (by simpa using notBlank), Nat.add_zero]

namespace Instrument

open Construct

variable {pass : Pass}

section Steps

theorem indented_statementOf (visible : isBlankLine line = false)
    (indentation : leadingBlanks line = script.indent.render (script.indent.measure line)) :
    Indented script.indent (statementOf script (assemble cursor line rest) line after) := by
  refine ⟨indentation, ?_⟩
  rw [body_statementOf script cursor rest after visible]
  exact starts_body_assemble cursor rest visible

theorem indented_replaced (h : Indented script.indent st) (site : Nat) :
    Indented script.indent (st.replaced script site) :=
  ⟨h.indentation, (substituteBlocking_enclosed ..).starts (fun _ new => new.starts) h.starts⟩

theorem Stepped.flat
    (h : Stepped script (assemble cursor line rest) (statementOf script (assemble cursor line rest) line after)
      pass step pass')
    (visible : isBlankLine line = false)
    (indentation : leadingBlanks line = script.indent.render (script.indent.measure line))
    (empty : hasBody script.indent after (script.indent.measure line) = false)
    (fits : spot.Fits (script.indent.measure line)) :
    Flat script.indent spot (statementOf script (assemble cursor line rest) line after) step := by
  have indented : Indented script.indent (statementOf script (assemble cursor line rest) line after) :=
    indented_statementOf visible indentation
  cases h with
  | decorator construct =>
    refine flat_of_at empty fits (List.forall_mem_singleton.2 ?_) (by simp) (.inl rfl)
    obtain ⟨c, tail, whole, notBlank, -⟩ := exists_first_of_visible visible
    obtain ⟨behind, text⟩ := text_assemble cursor line rest
    have blanks : leadingBlanks (assemble cursor line rest).text = leadingBlanks line := by
      rw [text, whole, List.append_assoc, List.cons_append, leadingBlanks_append_cons _
        (fun d mem => isBlankChar_of_mem_leadingBlanks mem) notBlank, ← whole]
    rw [Piece.At, Piece.placed, Piece.text, blanks, indentation]
    rfl
  | kept construct other free dispatched => exact dispatched.flat indented empty fits
  | replaced construct other blocking dispatched =>
    have flat := dispatched.flat (indented_replaced indented _) empty fits
    refine ⟨flat.laid, flat.prologue, flat.behind, fun unended => flat.shallow ?_⟩
    have swapped := substituteBlocking_enclosed
      (statementOf script (assemble cursor line rest) line after).body (assemble cursor line rest).first
      (assemble cursor line rest).directives script.callLimit pass.next
    rw [← unended, swapped.endsWithChar (fun _ new => new.getLast?) (by decide)]
    rfl

theorem Stepped.opens
    (h : Stepped script (assemble cursor line rest) (statementOf script (assemble cursor line rest) line after)
      pass step pass')
    (visible : isBlankLine line = false)
    (indentation : leadingBlanks line = script.indent.render (script.indent.measure line))
    (header : (assemble cursor line rest).isHeader)
    (stays : (assemble cursor line rest).StaysHeader script.callLimit)
    (body : hasBody script.indent after (script.indent.measure line))
    (fits : spot.Fits (script.indent.measure line)) :
    Laid script.indent spot (step.pieces.map (Piece.placed script.indent)) ⟨script.indent.measure line, true⟩ ∧
      step.nextLevel = script.indent.measure line + 1 ∧
      ∀ piece ∈ step.prologue, piece.At script.indent (script.indent.measure line + 1) := by
  have indented : Indented script.indent (statementOf script (assemble cursor line rest) line after) :=
    indented_statementOf visible indentation
  have bodyOf := body_statementOf script cursor rest after visible
  obtain ⟨kind, found, opens⟩ := LogicalStatement.isHeader_iff.1 header
  have stays := stays header
  rw [← bodyOf] at found stays
  cases h with
  | decorator construct =>
    cases construct.symm.trans found
    cases opens
  | kept construct other free dispatched => exact dispatched.opens indented found opens body fits
  | replaced construct other blocking dispatched =>
    obtain ⟨kind', found'⟩ := dispatched.classified
    exact dispatched.opens (indented_replaced indented _) found' (stays blocking _ _ found') body fits

end Steps

/-! ## What is still to be placed -/

theorem nextCode?_blank (blank : isBlankLine line) (rest : List Text) : nextCode? (line :: rest) = nextCode? rest := by
  simp [nextCode?, blank]

theorem nextCode?_visible (visible : isBlankLine line = false) (rest : List Text) :
    nextCode? (line :: rest) = some line := by
  simp [nextCode?, visible]

inductive Ready (config : IndentConfig) : Spot → (level : Nat) → (pending : List Piece) → List Text → Prop where
  | inside {outer : Nat} {pending : List Piece} {lines : List Text}
    (next : (nextCode? lines).map config.measure = some (outer + 1))
    (each : ∀ piece ∈ pending, piece.At config (outer + 1)) : Ready config ⟨outer, true⟩ (outer + 1) pending lines
  | beside {reached level : Nat} {lines : List Text}
    (next : ∀ line ∈ nextCode? lines, config.measure line ≤ level ∧ config.measure line ≤ reached ∧
      (isClauseLine line = true → level ≤ reached)) : Ready config ⟨reached, false⟩ level [] lines

section Walk

variable {script : Script}

theorem laid_blank (config : IndentConfig) (cursor : Int) (fits : spot.Fits level) :
    Laid config spot ([Piece.injected level (.probe none) cursor].map (Piece.placed config)) ⟨level, false⟩ :=
  .of_at_ne_nil (List.forall_mem_singleton.2 at_probe) fits (by simp)

theorem blankLevel?_inside (cursor : Int) (floor : Nat) (next : (nextCode? rest).map script.indent.measure = some level) :
    blankLevel? script cursor floor level rest = none ∨ blankLevel? script cursor floor level rest = some level := by
  obtain ⟨line, found, same⟩ := Option.map_eq_some_iff.1 next
  unfold blankLevel?
  rw [found]
  dsimp only
  rw [same, Nat.min_self]
  split
  · exact .inl rfl
  · split
    · rw [if_pos (Nat.le_refl level)]
      exact .inl rfl
    · exact .inr rfl

theorem Ready.blank (ready : Ready script.indent spot level pending (line :: rest)) (blank : isBlankLine line)
    (cursor : Int) :
    ∃ last, Laid script.indent spot ((pending ++ blankPieces script cursor 0 level rest).map (Piece.placed script.indent)) last ∧
      Ready script.indent last level [] rest := by
  have same := nextCode?_blank blank rest
  cases ready with
  | @inside outer _ _ next each =>
    rw [same] at next
    have all : ∀ piece ∈ pending ++ blankPieces script cursor 0 (outer + 1) rest, piece.At script.indent (outer + 1) := by
      rw [List.forall_mem_append]
      refine ⟨each, fun piece mem => ?_⟩
      obtain ⟨level, found, rfl⟩ := List.mem_map.1 mem
      rw [Option.mem_toList] at found
      rcases blankLevel?_inside cursor 0 next with none_ | some_
      · rw [none_] at found
        cases found
      · rw [some_] at found
        cases found
        exact at_probe
    by_cases empty : pending ++ blankPieces script cursor 0 (outer + 1) rest = []
    · rw [empty]
      exact ⟨_, .nil, .inside next (by simp)⟩
    · refine ⟨_, .of_at_ne_nil all rfl empty, .beside fun line found => ?_⟩
      rw [found, Option.map_some, Option.some.injEq] at next
      omega
  | @beside reached level _ next =>
    rw [same] at next
    rw [List.nil_append, blankPieces, blankLevel?]
    split
    · exact ⟨_, .nil, .beside next⟩
    · cases found : nextCode? rest with
      | none => exact ⟨_, laid_blank _ cursor (Nat.zero_le reached), .beside (by simp [found])⟩
      | some code =>
        obtain ⟨inLevel, inReach, clause⟩ := next code found
        dsimp only
        split
        · next isClause =>
          -- Before a clause the blank line belongs to the block that ends there, not to the level of the clause.
          split
          · exact ⟨_, .nil, .beside next⟩
          · refine ⟨_, laid_blank _ cursor (clause isClause), .beside fun line known => ?_⟩
            cases found.symm.trans known
            exact ⟨inLevel, inLevel, fun _ => Nat.le_refl level⟩
        · next isOther =>
          rw [Nat.min_eq_right inLevel]
          refine ⟨_, laid_blank _ cursor inReach, .beside fun line known => ?_⟩
          cases found.symm.trans known
          exact ⟨inLevel, Nat.le_refl _, fun isClause => absurd isClause isOther⟩

theorem Ready.fits (ready : Ready script.indent spot level pending (line :: rest)) (visible : isBlankLine line = false) :
    spot.Fits (script.indent.measure line) ∧ ∀ piece ∈ pending, piece.At script.indent (script.indent.measure line) := by
  have same := nextCode?_visible visible rest
  cases ready with
  | inside next each =>
    rw [same, Option.map_some, Option.some.injEq] at next
    exact ⟨next, next ▸ each⟩
  | beside next => exact ⟨(next line same).2.1, by simp⟩

theorem Ready.flat (fits : spot.Fits st.level) (each : ∀ piece ∈ pending, piece.At script.indent st.level)
    (flat : ∀ spot : Spot, spot.Fits st.level → Flat script.indent spot st step)
    (documented : documents = true → pending ≠ [] → endsWithChar st.body ':' = false) :
    ∃ last, Laid script.indent spot ((placePrologue documents pending step.pieces).map (Piece.placed script.indent)) last ∧
      Ready script.indent last step.nextLevel step.prologue st.after := by
  have behind (spot : Spot) (fits : spot.Fits st.level) (reached : Nat) (le : step.nextLevel ≤ reached) :
      Ready script.indent ⟨reached, false⟩ step.nextLevel step.prologue st.after := by
    rw [(flat spot fits).prologue]
    refine .beside fun line found => ?_
    have next := (flat spot fits).behind
    rw [nextLevel, found, Option.map_some, Option.getD_some] at next
    exact ⟨next, Nat.le_trans next le, fun _ => le⟩
  have laid (spot : Spot) (fits : spot.Fits st.level) :
      ∃ last, Laid script.indent spot (step.pieces.map (Piece.placed script.indent)) last ∧
        Ready script.indent last step.nextLevel step.prologue st.after := by
    obtain ⟨reached, laid, -, le⟩ := (flat spot fits).laid
    exact ⟨_, laid, behind spot fits reached le⟩
  unfold placePrologue
  split
  · next isDoc =>
    by_cases empty : pending = []
    · rw [empty, List.append_nil]
      exact laid spot fits
    · -- What opens the block comes behind the statement that documents it, so that one must not end deeper.
      obtain ⟨reached, laid, le, -⟩ := (flat spot fits).laid
      rw [List.map_append]
      exact ⟨_, laid.append (.of_at_ne_nil each le empty),
        behind spot fits _ ((flat spot fits).shallow (documented isDoc empty))⟩
  · rw [List.map_append]
    exact Laid.before fits each laid

theorem laid_opening (fits : spot.Fits level)
    (each : ∀ piece ∈ pending, piece.At script.indent level)
    (laid : ∀ spot : Spot, spot.Fits level →
      Laid script.indent spot (pieces.map (Piece.placed script.indent)) ⟨level, true⟩)
    (undocumented : documents = true → pending = []) :
    Laid script.indent spot ((placePrologue documents pending pieces).map (Piece.placed script.indent)) ⟨level, true⟩ := by
  unfold placePrologue
  split
  · next isDoc =>
    rw [undocumented isDoc, List.append_nil]
    exact laid spot fits
  · obtain ⟨last, laid, rfl⟩ := Laid.before fits each fun spot fits => ⟨_, laid spot fits, rfl⟩
    rw [List.map_append]
    exact laid

end Walk

/-! ## Walks -/

/-- A statement directly behind a header, where it may document the block, is not a header itself. -/
def DocumentsOnly (source next : LogicalStatement) : Prop :=
  source.isHeader = true → next.first = source.last + 1 → isDocstring (next.lines.headD []) = true →
    endsWithChar next.body ':' = false

instance : DecidableRel DocumentsOnly := fun _ _ => inferInstanceAs (Decidable (_ → _ → _ → _))

section Walks

variable {script : Script}

theorem wellIndented_assemble (visible : isBlankLine line = false)
    (h : WellIndented script.indent ceiling ((assemble cursor line rest).placed :: later)) :
    leadingBlanks line = script.indent.render (script.indent.measure line) ∧ script.indent.measure line ≤ ceiling ∧
      WellIndented script.indent (script.indent.measure line + (assemble cursor line rest).isHeader.toNat) later := by
  obtain ⟨indentation, le, later⟩ := h
  have head : (assemble cursor line rest).placed.indentation = leadingBlanks line := by
    rw [LogicalStatement.placed, headD_lines_assemble]
  rw [Placed.level, head] at indentation le later
  have same := measure_of_visible visible indentation
  rw [← same] at indentation le later
  exact ⟨indentation, le, later⟩

theorem Walks.next_level (walk : Walks script level pending cursor lines pass sources pieces pass')
    (indented : WellIndented script.indent ceiling (sources.map LogicalStatement.placed)) :
    ∀ line ∈ nextCode? lines, script.indent.measure line ≤ ceiling := by
  induction walk with
  | done => simp [nextCode?]
  | blank blank _ ih =>
    rw [nextCode?_blank blank]
    exact ih indented
  | statement visible found =>
    subst found
    rw [nextCode?_visible visible]
    rintro line ⟨⟩
    exact (wellIndented_assemble visible indented).2.1

theorem Walks.deeper (walk : Walks script level pending cursor lines pass sources pieces pass')
    (indented : WellIndented script.indent (outer + opens.toNat) (sources.map LogicalStatement.placed))
    (body : hasBody script.indent lines outer = true) :
    opens = true ∧ (nextCode? lines).map script.indent.measure = some (outer + 1) := by
  have bound := walk.next_level indented
  unfold hasBody at body
  cases found : nextCode? lines with
  | none => simp [found] at body
  | some line =>
    have atMost := bound line found
    rw [found, Option.any_some, decide_eq_true_eq] at body
    cases opens with
    | false => exact absurd (Nat.lt_of_lt_of_le body atMost) (Nat.lt_irrefl outer)
    | true =>
      rw [Bool.toNat_true] at atMost
      rw [Option.map_some, Nat.le_antisymm atMost body]
      exact ⟨rfl, rfl⟩

theorem Walks.laid (walk : Walks script level pending cursor lines pass sources pieces pass')
    (ready : Ready script.indent spot level pending lines)
    (indented : WellIndented script.indent ceiling (sources.map LogicalStatement.placed))
    (chain : sources.IsChain DocumentsOnly)
    (documented : pending ≠ [] → ∀ next ∈ sources.head?, next.first = cursor →
      isDocstring (next.lines.headD []) → endsWithChar next.body ':' = false)
    (stays : ∀ source ∈ sources, source.StaysHeader script.callLimit) :
    ∃ reached, Laid script.indent spot (pieces.map (Piece.placed script.indent)) ⟨reached, false⟩ := by
  induction walk generalizing spot ceiling with
  | done =>
    cases ready with
    | inside next => simp [nextCode?] at next
    | beside next => exact ⟨_, .nil⟩
  | blank blank walk ih =>
    obtain ⟨last, laid, ready⟩ := ready.blank blank _
    obtain ⟨reached, later⟩ := ih ready indented chain (by simp) stays
    rw [List.map_append]
    exact ⟨reached, laid.append later⟩
  | @statement level pending later cursor line rest source sources step pass between pass' visible found stepped walk ih =>
    subst found
    rw [List.isChain_cons] at chain
    rw [List.forall_mem_cons] at stays
    obtain ⟨fits, each⟩ := ready.fits visible
    obtain ⟨indentation, -, indentedLater⟩ := wellIndented_assemble visible indented
    have documented (isDoc : isDocstring line) (nonempty : pending ≠ []) :
        endsWithChar (assemble cursor line rest).body ':' = false :=
      documented nonempty _ rfl (first_assembleFrom ..) (by rwa [headD_lines_assemble])
    rw [List.map_append]
    cases body : hasBody script.indent (behind (assemble cursor line rest) rest) (script.indent.measure line) with
    | false =>
      obtain ⟨last, laid, ready⟩ := Ready.flat fits each
        (fun spot fits => stepped.flat visible indentation body fits) (by rwa [body_statementOf _ _ _ _ visible])
      have flat := (stepped.flat visible indentation body fits).prologue
      obtain ⟨reached, later⟩ := ih ready indentedLater chain.2 (by simp [flat]) stays.2
      exact ⟨reached, laid.append later⟩
    | true =>
      -- Something deeper follows, so the statement is a header and the block is one level deeper.
      obtain ⟨header, next⟩ := walk.deeper indentedLater body
      have opens (spot : Spot) (fits : spot.Fits (script.indent.measure line)) :=
        stepped.opens visible indentation header stays.1 body fits
      have undocumented (isDoc : isDocstring line) : pending = [] := by
        by_contra nonempty
        obtain ⟨kind, found, opens⟩ := LogicalStatement.isHeader_iff.1 header
        simp [endsWithChar_of_opensBlock found opens] at documented
        exact nonempty (documented isDoc)
      have laid := laid_opening fits each (fun spot fits => (opens spot fits).1) undocumented
      obtain ⟨-, inner, prologue⟩ := opens spot fits
      have ready := Ready.inside next prologue
      rw [← inner] at ready
      obtain ⟨reached, later⟩ := ih ready indentedLater chain.2 (fun _ next known => chain.1 next known header) stays.2
      exact ⟨reached, laid.append later⟩

end Walks

/-! ## Scripts -/

/-- The pieces of a well indented script are well indented, and each header is followed by a piece one level
deeper. -/
theorem instrumented_wellIndented {script : Script} {pieces : List Piece} {pass : Pass}
    (unhoisted : script.hoisted = [])
    (unmocked : ∀ source ∈ logicalStatements script.lines, mocksDef source = false)
    (indented : WellIndented script.indent 0 ((logicalStatements script.lines).map LogicalStatement.placed))
    (documents : (logicalStatements script.lines).IsChain DocumentsOnly)
    (stays : ∀ source ∈ logicalStatements script.lines, source.StaysHeader script.callLimit)
    (run : wholeScript script = .ok (pieces, pass)) :
    WellIndented script.indent 0 (pieces.map (Piece.placed script.indent)) ∧
      Filled script.indent (pieces.map (Piece.placed script.indent)) := by
  have walk := wholeScript_walks run unhoisted unmocked
  have ready : Ready script.indent ⟨0, false⟩ 0 [] script.lines := by
    refine .beside fun line found => ?_
    have first := walk.next_level indented line found
    exact ⟨first, first, fun _ => Nat.le_refl 0⟩
  obtain ⟨reached, laid⟩ := walk.laid ready indented documents (by simp) stays
  exact ⟨laid.wellIndented, (laid.filled rfl).1⟩

def layoutScript : Script where
  lines := List.map String.toList
    ["def f(a):", "    'Adds.'", "    for b in [a,", "              a]:", "        if input() == a:  # mock('x')", "",
      "            return b", "", "        else: x = 1", "    while a:", "", "class C:"]
  indent := .standard
  callLimit := 100
  hoisted := []

theorem instrumented_wellIndented_sample :
    WellIndented layoutScript.indent 0 ((logicalStatements layoutScript.lines).map LogicalStatement.placed) ∧
      ∃ pieces pass, wholeScript layoutScript = .ok (pieces, pass) ∧
        WellIndented layoutScript.indent 0 (pieces.map (Piece.placed layoutScript.indent)) ∧
        Filled layoutScript.indent (pieces.map (Piece.placed layoutScript.indent)) := by
  have unmocked : ∀ source ∈ logicalStatements layoutScript.lines, mocksDef source = false := by
    decide +kernel
  have indented : WellIndented layoutScript.indent 0 ((logicalStatements layoutScript.lines).map LogicalStatement.placed) := by
    decide +kernel
  have documents : (logicalStatements layoutScript.lines).IsChain DocumentsOnly := by
    decide +kernel
  have mocks : ∀ source ∈ logicalStatements layoutScript.lines,
      mockValue source.directives = "\"\"".toList ∨ mockValue source.directives = "'x'".toList := by
    decide +kernel
  have closed : Closed "\"\"".toList ∧ Closed "'x'".toList :=
    ⟨⟨⟨by decide, by decide, trivial⟩, rfl, rfl⟩, ⟨⟨by decide, by decide, by decide, trivial⟩, rfl, rfl⟩⟩
  have stays : ∀ source ∈ logicalStatements layoutScript.lines, source.StaysHeader layoutScript.callLimit := by
    intro source mem
    refine LogicalStatement.staysHeader_of_closed _ ?_
    rcases mocks source mem with value | value
    · exact value ▸ closed.1
    · exact value ▸ closed.2
  have runs : (wholeScript layoutScript).isOk = true := by
    decide +kernel
  obtain ⟨⟨pieces, pass⟩, run⟩ := exists_ok runs
  exact ⟨indented, pieces, pass, run, instrumented_wellIndented rfl unmocked indented documents stays run⟩

/-- A header that begins with a string, where it seems to document the block it stands in. -/
def stringHeaderScript : Script where
  lines := List.map String.toList ["def f(a):", "    \"x\":", "        y"]
  indent := .standard
  callLimit := 100
  hoisted := []

/-- A header that is an assignment once its blocking call is replaced by a value with an open string. -/
def openMockScript : Script where
  lines := List.map String.toList ["x = input(); y:  # 'mock(a' (b)", "    z"]
  indent := .standard
  callLimit := 100
  hoisted := []

/-- A well indented script whose pieces are not well indented. -/
structure LosesLayout (script : Script) : Prop where
  unhoisted : script.hoisted = []
  unmocked : ∀ source ∈ logicalStatements script.lines, mocksDef source = false
  indented : WellIndented script.indent 0 ((logicalStatements script.lines).map LogicalStatement.placed)
  broken : ∃ pieces pass, wholeScript script = .ok (pieces, pass) ∧
    ¬ WellIndented script.indent 0 (pieces.map (Piece.placed script.indent))

theorem broken_of_any
    (h : ((wholeScript script).toOption.any fun found =>
      !decide (WellIndented script.indent 0 (found.1.map (Piece.placed script.indent))))) :
    ∃ pieces pass, wholeScript script = .ok (pieces, pass) ∧
      ¬ WellIndented script.indent 0 (pieces.map (Piece.placed script.indent)) := by
  cases run : wholeScript script with
  | error cause => simp [run, Except.toOption] at h
  | ok found =>
    rw [run] at h
    exact ⟨found.1, found.2, rfl, by simpa [Except.toOption] using h⟩

/-- Neither of the two headers has its block behind it in the instrumented script. -/
theorem not_wellIndented_of_disguised_headers : LosesLayout stringHeaderScript ∧ LosesLayout openMockScript :=
  ⟨⟨rfl, by decide +kernel, by decide +kernel, broken_of_any (by decide +kernel)⟩,
    ⟨rfl, by decide +kernel, by decide +kernel, broken_of_any (by decide +kernel)⟩⟩

end Instrument

end LineProbe
