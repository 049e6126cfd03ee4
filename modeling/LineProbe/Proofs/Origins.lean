import LineProbe.Proofs.Alignment
import LineProbe.Proofs.Turns

/-!
# Origins of generated lines

Every generated line has an origin, the line of the script that it stands for or reports on.
-/

namespace LineProbe

open Text

/-! ## Pieces -/

def Piece.Within (config : IndentConfig) (first stop : Int) (piece : Piece) : Prop :=
  ∀ line ∈ piece.lines config, ∃ origin, line.origin = some origin ∧ first ≤ origin ∧ origin < stop

def Piece.Reports (config : IndentConfig) (index : Int) (piece : Piece) : Prop :=
  ∃ line ∈ piece.lines config, line.origin = some index

def Reported (config : IndentConfig) (pieces : List Piece) (index : Int) : Prop :=
  ∃ piece ∈ pieces, piece.Reports config index

variable {last stop : Int} {piece : Piece}

theorem Piece.Within.mono (h : piece.Within config first stop) (before : first' ≤ first) (behind : stop ≤ stop') :
    piece.Within config first' stop' := by
  intro line mem
  obtain ⟨origin, known, low, high⟩ := h line mem
  exact ⟨origin, known, by omega, by omega⟩

theorem reported_append :
    Reported config (pieces ++ pieces') index ↔ Reported config pieces index ∨ Reported config pieces' index := by
  simp only [Reported, List.mem_append, or_and_right, exists_or]

theorem reported_cons :
    Reported config (piece :: pieces) index ↔ piece.Reports config index ∨ Reported config pieces index := by
  simp only [Reported, List.mem_cons, or_and_right, exists_or, exists_eq_left]

theorem reported_iff_renderPieces :
    Reported config pieces index ↔ ∃ line ∈ renderPieces config pieces, line.origin = some index := by
  simp only [Reported, Piece.Reports, renderPieces, List.mem_flatMap]
  constructor
  · rintro ⟨piece, mem, line, located, known⟩
    exact ⟨line, ⟨piece, mem, located⟩, known⟩
  · rintro ⟨line, ⟨piece, mem, located⟩, known⟩
    exact ⟨piece, mem, line, located, known⟩

def Piece.span : Piece → Int × Int
  | .code _ first last | .header _ first last | .binding _ _ _ first last => (first, last)
  | .loopHead _ _ _ line => (line, line)
  | .injected _ _ origin => (origin, origin)

def Piece.Spans (first last : Int) (piece : Piece) : Prop :=
  first ≤ piece.span.1 ∧ piece.span.1 ≤ piece.span.2 ∧ piece.span.2 ≤ last

theorem Piece.Spans.within (h : piece.Spans first last) (config : IndentConfig) :
    piece.Within config first (last + 1) := by
  have code {text : Text} {low high : Int} (order : first ≤ low ∧ low ≤ high ∧ high ≤ last) :
      ∀ line ∈ codeLines text low high, ∃ origin, line.origin = some origin ∧ first ≤ origin ∧ origin < last + 1 := by
    intro line mem
    obtain ⟨⟨part, offset⟩, -, rfl⟩ := List.mem_map.1 mem
    exact ⟨_, rfl, by omega, by omega⟩
  have single {text : Text} {origin : Int} (low : first ≤ origin) (high : origin ≤ last) :
      ∀ line ∈ [(⟨text, some origin⟩ : GeneratedLine)],
        ∃ origin, line.origin = some origin ∧ first ≤ origin ∧ origin < last + 1 :=
    List.forall_mem_singleton.2 ⟨origin, rfl, low, by omega⟩
  cases piece with
  | code | header | binding => exact code h
  | loopHead | injected => exact single h.1 h.2.2

theorem codeLines_reported (low : first ≤ index) (high : index ≤ last)
    (long : (index - first).toNat < (splitNewlines text).length) :
    ∃ line ∈ codeLines text first last, line.origin = some index := by
  have located : ((splitNewlines text)[(index - first).toNat], (index - first).toNat) ∈ (splitNewlines text).zipIdx :=
    List.mk_mem_zipIdx_iff_getElem?.2 (List.getElem?_eq_getElem long)
  refine ⟨_, List.mem_map_of_mem located, ?_⟩
  dsimp only
  congr 1
  omega

theorem length_splitNewlines_pos (text : Text) : 0 < (splitNewlines text).length :=
  List.length_pos_iff.2 (splitAtChar_ne_nil _ _)

theorem reports_first (order : piece.span.1 ≤ piece.span.2) : piece.Reports config piece.span.1 := by
  have code {text : Text} {first last : Int} (order : first ≤ last) :
      ∃ line ∈ codeLines text first last, line.origin = some first :=
    codeLines_reported (Int.le_refl _) order (by simpa using length_splitNewlines_pos text)
  cases piece with
  | code | header | binding => exact code order
  | loopHead | injected => exact ⟨_, List.mem_singleton_self _, rfl⟩

namespace Instrument

variable {pass : Pass}

/-! ## Statements -/

section Statements

variable {st : Statement}

theorem spans_interior (level : Nat) : ∀ piece ∈ st.interior level, piece.Spans st.first st.last := by
  unfold Statement.interior
  split
  · intro piece mem
    obtain ⟨offset, bound, rfl⟩ := List.mem_map.1 mem
    rw [List.mem_range] at bound
    simp only [Piece.Spans, Piece.span]
    omega
  · simp

theorem spans_inject (order : st.first ≤ st.last) (level : Nat) (what : Injection) :
    (st.inject level what).Spans st.first st.last :=
  ⟨Int.le_refl _, Int.le_refl _, order⟩

theorem Guards.spans (h : Guards st level pass guards pass') (order : st.first ≤ st.last) :
    ∀ piece ∈ guards, piece.Spans st.first st.last := by
  intro piece mem
  obtain ⟨site, limit, rfl⟩ := h.mem mem
  exact spans_inject order _ _

theorem spans_orPass (order : st.first ≤ st.last) (h : ∀ piece ∈ pieces, piece.Spans st.first st.last) :
    ∀ piece ∈ orPass st level pieces, piece.Spans st.first st.last := by
  unfold orPass
  split
  · exact List.forall_mem_singleton.2 (spans_inject order _ _)
  · exact h

theorem Heads.spans (h : Heads script st construct pass parts pass') (order : st.first ≤ st.last) :
    ∀ piece ∈ parts.before ++ parts.header ++ parts.prologue, piece.Spans st.first st.last := by
  have injected := spans_inject order
  have interior : ∀ level, ∀ piece ∈ st.interior level, piece.Spans st.first st.last := spans_interior
  have whole : ∀ text, Piece.Spans st.first st.last (.header text st.first st.last) :=
    fun _ => ⟨Int.le_refl _, order, Int.le_refl _⟩
  have probe : ∀ (holds : Bool) level what,
      ∀ piece ∈ (if holds then [st.inject level what] else []), piece.Spans st.first st.last := by
    intro holds level what piece mem
    split at mem
    · rw [List.mem_singleton.1 mem]
      exact injected _ _
    · cases mem
  cases h with
  | loop marked guarded =>
    simp only [List.forall_mem_append, List.forall_mem_singleton, List.forall_mem_cons, List.forall_mem_map]
    exact ⟨⟨⟨fun _ _ => injected _ _, ⟨Int.le_refl _, order, Int.le_refl _⟩, injected _ _⟩,
      Int.le_refl _, Int.le_refl _, order⟩, ⟨injected _ _, guarded.spans order⟩, interior _⟩
  | definition marked guarded =>
    simp only [List.forall_mem_append, List.forall_mem_singleton, List.forall_mem_map]
    exact ⟨⟨fun _ _ => injected _ _, whole _⟩, ⟨fun _ _ => injected _ _, guarded.spans order⟩, interior _⟩
  | block marked guarded =>
    simp only [List.forall_mem_append, List.forall_mem_singleton, List.forall_mem_map]
    exact ⟨⟨⟨fun _ _ => injected _ _, probe _ _ _⟩, whole _⟩, ⟨probe _ _ _, guarded.spans order⟩, interior _⟩

theorem Dispatched.spans (h : Dispatched script st pass step pass') (order : st.first ≤ st.last) :
    ∀ piece ∈ step.pieces ++ step.prologue, piece.Spans st.first st.last := by
  induction h with
  | @augmented st _ _ _ _ _ _ _ guarded =>
    have injected := spans_inject order
    simp only [List.append_nil, List.forall_mem_append, List.forall_mem_cons]
    exact ⟨⟨guarded.spans order, ⟨Int.le_refl _, order, Int.le_refl _⟩, injected _ _, injected _ _, by simp⟩,
      spans_interior _⟩
  | @assigned st _ _ _ _ _ _ _ _ guarded | @plain st _ _ _ _ _ _ guarded =>
    have injected := spans_inject order
    simp only [List.append_nil, List.forall_mem_append, List.forall_mem_cons]
    exact ⟨⟨guarded.spans order, ⟨Int.le_refl _, order, Int.le_refl _⟩, injected _ _, by simp⟩, spans_interior _⟩
  | printed _ guarded =>
    simp only [List.append_nil, List.forall_mem_append, List.forall_mem_singleton]
    exact ⟨⟨guarded.spans order, Int.le_refl _, order, Int.le_refl _⟩, spans_interior _⟩
  | returned _ _ guarded =>
    have injected := spans_inject order
    simp only [List.append_nil, List.forall_mem_append, List.forall_mem_cons]
    exact ⟨⟨guarded.spans order, spans_interior _⟩, ⟨Int.le_refl _, order, Int.le_refl _⟩, injected _ _, injected _ _,
      by simp⟩
  | ended _ _ guarded =>
    have injected := spans_inject order
    simp only [List.append_nil, List.forall_mem_append, List.forall_mem_cons]
    exact ⟨⟨guarded.spans order, spans_interior _⟩, injected _ _, injected _ _, by simp⟩
  | opened _ _ heads => exact heads.spans order
  | openedEmpty _ _ heads =>
    have parts := heads.spans order
    rw [List.forall_mem_append] at parts
    rw [List.append_nil]
    exact List.forall_mem_append.2 ⟨parts.1, spans_orPass order parts.2⟩
  | inline _ _ heads _ ih =>
    rw [List.append_nil, List.append_assoc]
    exact List.forall_mem_append.2 ⟨heads.spans order, ih order⟩
  | ignored _ guarded =>
    simp only [List.append_nil, List.forall_mem_append, List.forall_mem_singleton]
    exact ⟨⟨guarded.spans order, spans_interior _⟩, Int.le_refl _, order, Int.le_refl _⟩

theorem reported_interior (reports : st.reportsInterior) (low : st.first < index) (high : index ≤ st.last) :
    Reported config (st.interior level) index := by
  refine ⟨.injected level (.probe none) index, ?_, reports_first (Int.le_refl _)⟩
  rw [Statement.interior, if_pos reports]
  refine List.mem_map.2 ⟨(index - st.first - 1).toNat, List.mem_range.2 (by omega), ?_⟩
  congr 1
  omega

theorem reported_orPass (h : Reported config pieces index) : Reported config (orPass st level pieces) index := by
  obtain ⟨piece, mem, reports⟩ := h
  cases pieces with
  | nil => cases mem
  | cons first rest => exact ⟨piece, mem, reports⟩

theorem Heads.reported_header (h : Heads script st construct pass parts pass') (order : st.first ≤ st.last) :
    Reported config parts.header st.first := by
  cases h with
  | loop => exact reported_cons.2 (.inl (reports_first (Int.le_refl st.first)))
  | definition | block => exact reported_cons.2 (.inl (reports_first order))

theorem Heads.reported_prologue (h : Heads script st construct pass parts pass') (reports : st.reportsInterior)
    (low : st.first < index) (high : index ≤ st.last) : Reported config parts.prologue index := by
  cases h <;> exact reported_append.2 (.inr (reported_interior reports low high))

theorem Dispatched.reported_first (h : Dispatched script st pass step pass') (order : st.first ≤ st.last) :
    Reported config step.pieces st.first := by
  have own (body : Text) : (st.own body).Reports config st.first := reports_first order
  have bound (temp : Temp) (value : Text) : (st.bind temp value).Reports config st.first := reports_first order
  have injected (level : Nat) (what : Injection) : (st.inject level what).Reports config st.first :=
    reports_first (Int.le_refl _)
  cases h with
  | augmented =>
    simp only [reported_append, reported_cons]
    exact .inl (.inr (.inl (bound _ _)))
  | assigned | printed | plain =>
    simp only [reported_append, reported_cons]
    exact .inl (.inr (.inl (own _)))
  | returned =>
    simp only [reported_append, reported_cons]
    exact .inr (.inl (bound _ _))
  | ended =>
    simp only [reported_append, reported_cons]
    exact .inr (.inl (injected _ _))
  | ignored =>
    simp only [reported_append, reported_cons]
    exact .inr (.inl (own _))
  | opened _ _ heads => exact reported_append.2 (.inr (heads.reported_header order))
  | openedEmpty _ _ heads =>
    simp only [reported_append]
    exact .inl (.inr (heads.reported_header order))
  | inline _ _ heads =>
    have header : Reported config _ st.first := heads.reported_header order
    simp only [reported_append]
    exact .inl (.inl (.inl (.inr header)))

theorem Dispatched.reported_interior (h : Dispatched script st pass step pass') (reports : st.reportsInterior)
    (low : st.first < index) (high : index ≤ st.last) : Reported config (step.pieces ++ step.prologue) index := by
  have interior (level : Nat) : Reported config (st.interior level) index :=
    Instrument.reported_interior reports low high
  cases h with
  | augmented | assigned | printed | plain =>
    simp only [List.append_nil]
    exact reported_append.2 (.inr (interior _))
  | returned | ended | ignored =>
    simp only [List.append_nil, reported_append]
    exact .inl (.inr (interior _))
  | opened _ _ heads => exact reported_append.2 (.inr (heads.reported_prologue reports low high))
  | openedEmpty _ _ heads =>
    rw [List.append_nil]
    exact reported_append.2 (.inr (reported_orPass (heads.reported_prologue reports low high)))
  | inline _ _ heads =>
    have prologue : Reported config _ index := heads.reported_prologue reports low high
    simp only [List.append_nil, reported_append]
    exact .inl (.inl (.inr prologue))

theorem Stepped.spans (h : Stepped script source st pass step pass') (order : st.first ≤ st.last) :
    ∀ piece ∈ step.pieces ++ step.prologue, piece.Spans st.first st.last := by
  cases h with
  | decorator =>
    rw [List.append_nil, List.forall_mem_singleton]
    exact ⟨Int.le_refl _, order, Int.le_refl _⟩
  | kept _ _ _ dispatched | replaced _ _ _ dispatched => exact dispatched.spans order

theorem length_before_lt_splitNewlines (source : LogicalStatement) :
    source.before.length < (splitNewlines source.text).length := by
  have lines := (length_flatMap_splitNewlines_le source.lines).1
  have length : source.lines.length = source.before.length + 1 := by simp [LogicalStatement.lines]
  obtain ⟨line, rest, same⟩ := List.exists_cons_of_ne_nil (List.ne_nil_of_length_eq_add_one length)
  rw [LogicalStatement.text, same, splitNewlines_joinLines, ← same]
  omega

theorem codeLines_text_reported {source : LogicalStatement} (whole : last = first + source.before.length)
    (low : first ≤ index) (high : index ≤ last) :
    ∃ line ∈ codeLines source.text first last, line.origin = some index := by
  have long := length_before_lt_splitNewlines source
  exact codeLines_reported low high (by omega)

theorem Stepped.reported (h : Stepped script source st pass step pass') (reports : st.reportsInterior)
    (whole : st.last = st.first + source.before.length) (low : st.first ≤ index) (high : index ≤ st.last) :
    Reported config (step.pieces ++ step.prologue) index := by
  have order : st.first ≤ st.last := by omega
  cases h with
  | decorator => exact ⟨_, List.mem_singleton_self _, codeLines_text_reported whole low high⟩
  | kept _ _ _ dispatched | replaced _ _ _ dispatched =>
    rcases Int.lt_or_eq_of_le low with interior | rfl
    · exact dispatched.reported_interior reports interior high
    · exact reported_append.2 (.inl (dispatched.reported_first order))

end Statements

/-! ## Blocks -/

theorem statementHeads_within (nonneg : 0 ≤ index) :
    ∀ head ∈ statementHeads script index lines,
      ∃ position line, head = .ok (position, line) ∧ index ≤ position ∧ position < index + lines.length := by
  intro head mem
  induction size : lines.length using Nat.strongRecOn generalizing index lines with
  | ind size_ ih =>
    subst size
    cases lines with
    | nil =>
      rw [statementHeads] at mem
      cases mem
    | cons first rest =>
      rw [statementHeads] at mem
      simp only [List.length_cons]
      split at mem
      · rcases List.mem_cons.1 mem with rfl | later
        · exact ⟨index, first, rfl, by omega, by omega⟩
        · obtain ⟨position, line, same, low, high⟩ := ih rest.length (by simp) (by omega) later rfl
          exact ⟨position, line, same, by omega, by omega⟩
      · rw [statementIn_of_nonneg nonneg] at mem
        rcases List.mem_cons.1 mem with rfl | later
        · exact ⟨index, first, rfl, by omega, by omega⟩
        · have last := last_assemble index first rest
          have extent := extent_assemble index first rest
          have taken := length_before_assemble_le index first rest
          obtain ⟨position, line, same, low, high⟩ :=
            ih _ (by simp only [List.length_cons, List.length_drop]; omega) (by omega) later rfl
          simp only [List.length_drop] at high
          exact ⟨position, line, same, by omega, by omega⟩

theorem statementHeads_bounds (nonneg : 0 ≤ index) (h : .ok (position, line) ∈ statementHeads script index lines) :
    index ≤ position ∧ position < index + lines.length := by
  obtain ⟨_, _, same, bounds⟩ := statementHeads_within nonneg _ h
  cases same
  exact bounds

theorem blockEnd?_mem (h : blockEnd? config level heads = .ok (some stop)) : ∃ line, .ok (stop, line) ∈ heads := by
  induction heads with
  | nil => cases h
  | cons head heads ih =>
    cases head with
    | error cause => cases h
    | ok found =>
      obtain ⟨index, line⟩ := found
      rw [blockEnd?] at h
      split at h
      · cases h
        exact ⟨line, List.mem_cons_self⟩
      · obtain ⟨line, mem⟩ := ih h
        exact ⟨line, List.mem_cons_of_mem _ mem⟩

theorem lengthBefore_le {script : Script} {index : Int} {stop : Option Int} (nonneg : 0 ≤ index)
    (stops : blockEnd? script.indent level (statementHeads script.lines index lines) = .ok stop) :
    lengthBefore index lines stop ≤ lines.length := by
  cases stop with
  | none => exact Nat.le_refl _
  | some stop =>
    obtain ⟨line, mem⟩ := blockEnd?_mem stops
    have bounds := statementHeads_bounds nonneg mem
    simp only [lengthBefore]
    omega

theorem blank_of_not_hasBody {script : Script} {index : Int} {stop : Option Int} (nonneg : 0 ≤ index)
    (stops : blockEnd? script.indent level (statementHeads script.lines index lines) = .ok stop)
    (empty : hasBody script.indent (lines.take (lengthBefore index lines stop)) level = false) :
    ∀ line ∈ lines.take (lengthBefore index lines stop), isBlankLine line := by
  induction lines generalizing index with
  | nil => simp
  | cons line rest ih =>
    rw [statementHeads] at stops
    split at stops
    · next blank =>
      rw [blockEnd?] at stops
      simp only [blank, Bool.not_true, Bool.false_and, Bool.false_eq_true, if_false] at stops
      have length : lengthBefore index (line :: rest) stop = lengthBefore (index + 1) rest stop + 1 := by
        cases stop with
        | none => rfl
        | some stop =>
          obtain ⟨_, mem⟩ := blockEnd?_mem stops
          have bounds := statementHeads_bounds (by omega) mem
          simp only [lengthBefore]
          omega
      rw [length, List.take_succ_cons] at empty ⊢
      have inner : hasBody script.indent (rest.take (lengthBefore (index + 1) rest stop)) level = false := by
        simpa [hasBody, nextCode?, blank] using empty
      exact List.forall_mem_cons.2 ⟨blank, ih (by omega) stops inner⟩
    · next visible =>
      rw [statementIn_of_nonneg nonneg] at stops
      dsimp only at stops
      rw [blockEnd?] at stops
      split at stops
      · cases stops
        simp [lengthBefore]
      · next inside =>
        -- The first line is deeper than the header, so the block has a body.
        have pos : lengthBefore index (line :: rest) stop ≠ 0 := by
          cases stop with
          | none => simp [lengthBefore]
          | some stop =>
            obtain ⟨_, mem⟩ := blockEnd?_mem stops
            have last := last_assemble index line rest
            have bounds := statementHeads_bounds (by omega) mem
            simp only [lengthBefore]
            omega
        obtain ⟨length, same⟩ := Nat.exists_eq_succ_of_ne_zero pos
        rw [same, List.take_succ_cons] at empty
        simp only [hasBody, nextCode?, List.find?_cons, visible] at empty
        simp [visible] at inside empty
        omega

/-! ## Mocked functions -/

section Mocked

variable {st : Statement}

theorem spans_mockedPrologue (order : st.first ≤ st.last) :
    ∀ piece ∈ mockedPrologue st mocked, piece.Spans st.first st.last := by
  simp only [mockedPrologue, List.forall_mem_append, List.forall_mem_map]
  exact ⟨fun _ _ => spans_inject order _ _, spans_interior _⟩

theorem within_writtenBody (order : st.first ≤ st.last) :
    ∀ piece ∈ writtenBody config st block, piece.Within config st.first (st.last + 1 + block.length) := by
  unfold writtenBody
  split
  · intro piece mem
    obtain ⟨⟨line, offset⟩, located, rfl⟩ := List.mem_map.1 mem
    have bound : offset < block.length := (List.mk_mem_zipIdx_iff_getElem?.1 located |> List.getElem?_eq_some_iff.1).1
    have spans : Piece.Spans (st.last + 1 + offset) (st.last + 1 + offset)
        (.code line (st.last + 1 + offset) (st.last + 1 + offset)) :=
      ⟨Int.le_refl _, Int.le_refl _, Int.le_refl _⟩
    exact (spans.within config).mono (by omega) (by omega)
  · refine List.forall_mem_singleton.2 (((spans_inject order _ _).within config).mono (Int.le_refl _) ?_)
    omega

theorem within_mockedPieces (order : st.first ≤ st.last) (placed : Guards st (st.level + 1) pass guards pass')
    (h : ∀ piece ∈ body, piece.Within config st.first (st.last + 1 + block.length)) :
    ∀ piece ∈ mockedPieces config source st block mocked shadow guards body,
      piece.Within config st.first (st.last + 1 + block.length) := by
  have inStatement {piece : Piece} (spans : piece.Spans st.first st.last) :
      piece.Within config st.first (st.last + 1 + block.length) :=
    (spans.within config).mono (Int.le_refl _) (by omega)
  have header (text : Text) : Piece.Spans st.first st.last (.header text st.first st.last) :=
    ⟨Int.le_refl _, order, Int.le_refl _⟩
  simp only [mockedPieces, List.forall_mem_append, List.forall_mem_cons, List.cons_append]
  exact ⟨inStatement (header _), ⟨⟨fun piece mem => inStatement (placed.spans order piece mem),
    within_writtenBody order⟩, inStatement (header _), h⟩, inStatement (spans_inject order _ _), by simp⟩

theorem reported_mockedPieces (whole : st.last = st.first + source.before.length) (low : st.first ≤ index)
    (high : index < st.last + 1 + block.length) :
    Reported config (mockedPieces config source st block mocked shadow guards body) index ∨
      hasBody config block st.level = false ∧ st.last < index := by
  simp only [mockedPieces, reported_append, reported_cons, List.cons_append]
  by_cases inHeader : index ≤ st.last
  · exact .inl (.inl (codeLines_text_reported whole low inHeader))
  · cases filled : hasBody config block st.level with
    | false => exact .inr ⟨rfl, by omega⟩
    | true =>
      refine .inl (.inr (.inl (.inl (.inr ?_))))
      have bound : (index - (st.last + 1)).toNat < block.length := by omega
      have place : st.last + 1 + ((index - (st.last + 1)).toNat : Int) = index := by omega
      have located := List.mk_mem_zipIdx_iff_getElem?.2 (List.getElem?_eq_getElem bound)
      rw [writtenBody, if_pos filled]
      refine ⟨_, List.mem_map_of_mem located, ?_⟩
      dsimp only
      rw [place]
      exact reports_first (Int.le_refl _)

end Mocked

/-! ## Runs -/

section Runs

variable {script : Script}

structure Occupies (cursor : Int) (rest : List Text) (source : LogicalStatement) : Prop where
  first : source.first = cursor
  last : source.last = cursor + source.before.length
  extent : source.extent = source.before.length
  taken : source.before.length ≤ rest.length

theorem occupies_of_found (nonneg : 0 ≤ cursor) (found : statementIn script.lines cursor line rest = .ok source) :
    Occupies cursor rest source := by
  obtain rfl := assemble_eq_of_found nonneg found
  exact ⟨first_assembleFrom .., last_assemble .., extent_assemble .., length_before_assemble_le ..⟩

theorem within_blankPieces (config : IndentConfig) (floor level : Nat) (after : List Text) :
    ∀ piece ∈ blankPieces script cursor floor level after, piece.Within config cursor (cursor + 1) := by
  intro piece mem
  obtain ⟨level, -, rfl⟩ := List.mem_map.1 mem
  have spans : Piece.Spans cursor cursor (.injected level (.probe none) cursor) :=
    ⟨Int.le_refl _, Int.le_refl _, Int.le_refl _⟩
  exact spans.within config

theorem Turned.moves (h : Turned script floor level cursor line rest now) (nonneg : 0 ≤ cursor) :
    ∃ count ≤ rest.length, now.cursor = cursor ∧ now.next = cursor + 1 + count ∧ now.behind = rest.drop count := by
  cases h with
  | hoisted | blank => exact ⟨0, Nat.zero_le _, rfl, by simp, rfl⟩
  | statement found =>
    obtain ⟨-, last, extent, taken⟩ := occupies_of_found nonneg found
    refine ⟨_, taken, rfl, ?_, by rw [← extent]⟩
    dsimp only
    omega
  | mocked found same _ stops cut =>
    obtain ⟨-, last, extent, taken⟩ := occupies_of_found nonneg found
    have bound := lengthBefore_le (by omega) stops
    rw [← cut, List.length_drop, extent] at bound
    refine ⟨_, Nat.add_le_of_le_sub' taken bound, rfl, ?_, ?_⟩
    · dsimp only
      omega
    · rw [← extent, List.drop_drop]

def OriginsWithin (script : Script) (size : Nat) : Prop :=
  ∀ {floor level : Nat} {pending pieces : List Piece} {cursor first stop : Int} {lines : List Text}
    {pass pass' : Pass}, Runs script floor level pending cursor lines pass pieces pass' → lines.length ≤ size →
    0 ≤ cursor → first ≤ cursor → cursor + lines.length ≤ stop →
    (∀ piece ∈ pending, piece.Within script.indent first stop) →
    ∀ piece ∈ pieces, piece.Within script.indent first stop

theorem Turned.within_of (h : Turned script floor level cursor line rest now) (nonneg : 0 ≤ cursor)
    (inner : OriginsWithin script rest.length) :
    ∀ piece ∈ now.pieces ++ now.prologue, piece.Within script.indent cursor now.next := by
  cases h with
  | hoisted => simp
  | blank =>
    rw [List.append_nil]
    exact within_blankPieces _ _ _ _
  | statement found stepped =>
    obtain ⟨rfl, last, -, -⟩ := occupies_of_found nonneg found
    intro piece mem
    exact (stepped.spans (by simp only [statementOf]; omega) piece mem).within _
  | @mocked source st mocked stop guards body _ guarded _ length found same _ stops cut placed copy =>
    obtain ⟨rfl, last, extent, taken⟩ := occupies_of_found nonneg found
    have bound := lengthBefore_le (by omega) stops
    rw [← cut, List.length_drop] at bound
    have size : ((behind source rest).take length).length = length := by
      rw [List.length_take, List.length_drop]
      omega
    have firstLine : st.first = source.first := by rw [same]; rfl
    have lastLine : st.last = source.last := by rw [same]; rfl
    have order : st.first ≤ st.last := by omega
    have opening : ∀ piece ∈ mockedPrologue st mocked, piece.Spans st.first st.last := spans_mockedPrologue order
    have copied : ∀ piece ∈ body, piece.Within script.indent st.first
        (st.last + 1 + ((behind source rest).take length).length) := by
      cases copy with
      | filled _ run =>
        refine inner run (by omega) (by omega) (by omega) (by omega) fun piece mem => ?_
        exact ((opening piece mem).within _).mono (Int.le_refl _) (by omega)
      | empty =>
        intro piece mem
        exact ((spans_orPass order opening piece mem).within _).mono (Int.le_refl _) (by omega)
    rw [List.append_nil]
    intro piece mem
    have within := within_mockedPieces order placed copied piece mem
    rwa [size, firstLine, lastLine] at within

theorem originsWithin (script : Script) (size : Nat) : OriginsWithin script size := by
  induction size with
  | zero =>
    intro _ _ _ _ _ _ _ lines _ _ run short _ _ _ h
    obtain rfl := List.length_eq_zero_iff.1 (Nat.le_zero.1 short)
    cases run
    exact h
  | succ size ih =>
    intro floor level pending pieces cursor first stop lines pass pass' run short nonneg low high h
    cases lines with
    | nil =>
      cases run
      exact h
    | cons line rest =>
      rw [List.length_cons] at short high
      obtain ⟨now, between, later, turned, goesOn, rfl⟩ := run.turned
      obtain ⟨count, taken, -, next, behind⟩ := turned.moves nonneg
      have own := turned.within_of nonneg fun inner fewer => ih inner (by omega)
      rw [List.forall_mem_append] at own
      have fits {piece : Piece} (within : piece.Within script.indent cursor now.next) :
          piece.Within script.indent first stop :=
        within.mono low (by omega)
      refine List.forall_mem_append.2 ⟨forall_mem_placePrologue _ h fun piece mem => fits (own.1 piece mem), ?_⟩
      have left : now.behind.length + count = rest.length := by
        rw [behind, List.length_drop]
        omega
      exact ih goesOn (by omega) (by omega) (by omega) (by omega) fun piece mem => fits (own.2 piece mem)

theorem Turned.within (h : Turned script floor level cursor line rest now) (nonneg : 0 ≤ cursor) :
    ∀ piece ∈ now.pieces ++ now.prologue, piece.Within script.indent cursor now.next :=
  h.within_of nonneg (originsWithin script rest.length)

def Exempt (script : Script) (cursor : Int) (lines : List Text) (index : Int) : Prop :=
  index ∈ script.hoisted ∨ ∃ text, lines[(index - cursor).toNat]? = some text ∧ isBlankLine text = true

theorem Exempt.of_drop {count : Nat} (h : Exempt script (cursor + 1 + count) (rest.drop count) index)
    (low : cursor + 1 + count ≤ index) : Exempt script cursor (line :: rest) index := by
  refine h.imp id ?_
  rintro ⟨text, located, blank⟩
  refine ⟨text, ?_, blank⟩
  rw [List.getElem?_drop] at located
  rw [← located, show (index - cursor).toNat = (count + (index - (cursor + 1 + count)).toNat) + 1 by omega,
    List.getElem?_cons_succ]

theorem Turned.reported {index : Int} (h : Turned script floor level cursor line rest now) (nonneg : 0 ≤ cursor)
    (low : cursor ≤ index) (high : index < now.next) :
    Reported script.indent (now.pieces ++ now.prologue) index ∨ Exempt script cursor (line :: rest) index := by
  cases h with
  | hoisted hoisted =>
    obtain rfl : index = cursor := by
      dsimp only at high
      omega
    exact .inr (.inl (List.contains_iff_mem.1 hoisted))
  | blank blank =>
    obtain rfl : index = cursor := by
      dsimp only at high
      omega
    exact .inr (.inr ⟨line, by simp, blank⟩)
  | statement found stepped =>
    obtain ⟨rfl, last, -, -⟩ := occupies_of_found nonneg found
    exact .inl (stepped.reported rfl last low (by dsimp only at high; simp only [statementOf]; omega))
  | @mocked source st mocked stop guards body _ guarded _ length found same _ stops cut =>
    obtain ⟨rfl, last, extent, taken⟩ := occupies_of_found nonneg found
    have bound := lengthBefore_le (by omega) stops
    rw [← cut, List.length_drop] at bound
    have size : ((behind source rest).take length).length = length := by
      rw [List.length_take, List.length_drop]
      omega
    have firstLine : st.first = source.first := by rw [same]; rfl
    have lastLine : st.last = source.last := by rw [same]; rfl
    dsimp only at high
    rw [List.append_nil]
    have whole : st.last = st.first + source.before.length := by omega
    refine (reported_mockedPieces whole (by omega) (by omega)).imp id ?_
    rintro ⟨empty, inBlock⟩
    -- The block has blank lines only, and the line stands in it.
    subst cut
    have blank := blank_of_not_hasBody (by omega) stops empty
    have inside : (index - (source.last + 1)).toNat < (behind source rest).length := by
      rw [List.length_drop]
      omega
    obtain ⟨text, located⟩ : ∃ text, (behind source rest)[(index - (source.last + 1)).toNat]? = some text :=
      ⟨_, List.getElem?_eq_getElem inside⟩
    have listed := blank text (List.mem_of_getElem? ((List.getElem?_take_of_lt (by omega)).trans located))
    rw [show source.last + 1 = source.first + 1 + (source.extent : Int) by omega] at located
    have exempt : Exempt script (source.first + 1 + source.extent) (behind source rest) index :=
      .inr ⟨text, located, listed⟩
    exact exempt.of_drop (by omega)

theorem Runs.reported (run : Runs script floor level pending cursor lines pass pieces pass') (nonneg : 0 ≤ cursor) :
    (Reported script.indent pending index → Reported script.indent pieces index) ∧
      (cursor ≤ index → index < cursor + lines.length →
        Reported script.indent pieces index ∨ Exempt script cursor lines index) := by
  induction size : lines.length using Nat.strongRecOn generalizing floor level pending pieces cursor lines pass with
  | ind size_ ih =>
    subst size
    cases lines with
    | nil =>
      cases run
      refine ⟨id, fun low high => ?_⟩
      rw [List.length_nil] at high
      omega
    | cons line rest =>
      obtain ⟨now, between, later, turned, goesOn, rfl⟩ := run.turned
      obtain ⟨count, taken, -, next, behind⟩ := turned.moves nonneg
      have left : now.behind.length + count = rest.length := by
        rw [behind, List.length_drop]
        omega
      have ⟨prologue, others⟩ := ih _ (by rw [List.length_cons]; omega) goesOn (by omega) rfl
      have placed : Reported script.indent (placePrologue now.documents pending now.pieces) index ↔
          Reported script.indent pending index ∨ Reported script.indent now.pieces index := by
        unfold placePrologue
        split
        · rw [reported_append, or_comm]
        · rw [reported_append]
      rw [reported_append, placed]
      refine ⟨fun waiting => .inl (.inl waiting), fun low high => ?_⟩
      rw [List.length_cons] at high
      by_cases inTurn : index < now.next
      · refine (turned.reported nonneg low inTurn).imp ?_ id
        rw [reported_append]
        rintro (own | waiting)
        · exact .inl (.inr own)
        · exact .inr (prologue waiting)
      · refine (others (by omega) (by omega)).imp .inr fun exempt => ?_
        rw [next, behind] at exempt
        exact exempt.of_drop (by omega)

end Runs

/-! ## Turns of a range -/

structure LinesAt (script : List Text) (index : Int) (lines : List Text) : Prop where
  nonneg : 0 ≤ index
  here : lines <+: script.drop index.toNat

theorem linesAt_linesAlong (stop : Int) (nonneg : 0 ≤ start) : LinesAt script start (linesAlong script start stop) := by
  refine ⟨nonneg, ?_⟩
  rw [linesAlong, List.drop_take, show (start + script.length).toNat = script.length + start.toNat by omega,
    List.drop_append, List.drop_eq_nil_of_le (by omega), List.nil_append, Nat.add_sub_cancel_left]
  exact List.take_prefix _ _

theorem length_linesAlong (nonneg : 0 ≤ start) (order : start ≤ stop) (bound : stop ≤ script.length) :
    ((linesAlong script start stop).length : Int) = stop - start := by
  simp only [linesAlong, List.length_drop, List.length_take, List.length_append]
  omega

namespace LinesAt

theorem drop (h : LinesAt script index (line :: rest)) (count : Nat) :
    LinesAt script (index + 1 + count) (rest.drop count) := by
  obtain ⟨nonneg, tail, same⟩ := h
  refine ⟨by omega, tail.drop (count - rest.length), ?_⟩
  rw [show (index + 1 + count).toNat = index.toNat + (count + 1) by omega, ← List.drop_drop, ← same,
    List.cons_append, List.drop_succ_cons, List.drop_append]

theorem take (h : LinesAt script index lines) (count : Nat) : LinesAt script index (lines.take count) :=
  ⟨h.nonneg, (List.take_prefix _ _).trans h.here⟩

theorem getElem? (h : LinesAt script index lines) (bound : offset < lines.length) :
    script[index.toNat + offset]? = lines[offset]? := by
  obtain ⟨-, tail, same⟩ := h
  rw [← List.getElem?_drop, ← same, List.getElem?_append_left bound]

end LinesAt

/-- A turn of a range that ends at `stop` goes on, within the range. Its lines and those of its prologue have
their origins among the lines of the script that it deals with, and each of these that is neither blank nor
hoisted is the origin of one of them. -/
structure Turn.Accounted (script : Script) (stop : Int) (now : Turn) : Prop where
  advances : now.cursor < now.next
  ends : now.next ≤ stop
  sound : ∀ line ∈ renderPieces script.indent (now.pieces ++ now.prologue),
    ∃ origin, line.origin = some origin ∧ now.cursor ≤ origin ∧ origin < now.next
  complete : ∀ index text, now.cursor ≤ index → index < now.next → script.lines[index.toNat]? = some text →
    isBlankLine text = false → index ∉ script.hoisted →
    ∃ line ∈ renderPieces script.indent (now.pieces ++ now.prologue), line.origin = some index

theorem Turned.accounted (h : Turned script floor level cursor line rest now)
    (here : LinesAt script.lines cursor (line :: rest)) : now.Accounted script (cursor + (line :: rest).length) := by
  obtain ⟨count, taken, same, next, -⟩ := h.moves here.nonneg
  refine ⟨by omega, by rw [List.length_cons]; omega, ?_, ?_⟩
  · intro line mem
    obtain ⟨piece, listed, mem⟩ := List.mem_flatMap.1 mem
    rw [same]
    exact h.within here.nonneg piece listed line mem
  · intro index text low high located visible unhoisted
    rw [same] at low
    refine reported_iff_renderPieces.1 ((h.reported here.nonneg low high).resolve_right ?_)
    rintro (hoisted | ⟨text', located', blank⟩)
    · exact unhoisted hoisted
    · have bound := (List.getElem?_eq_some_iff.1 located').1
      have nonneg := here.nonneg
      rw [← here.getElem? bound, show cursor.toNat + (index - cursor).toNat = index.toNat by omega, located] at located'
      obtain rfl := Option.some.inj located'
      rw [visible] at blank
      cases blank

theorem LinesAt.block {script : Script} {cursor : Int} {line : Text} {rest : List Text} {source : LogicalStatement}
    (here : LinesAt script.lines cursor (line :: rest)) (found : statementIn script.lines cursor line rest = .ok source)
    (length : Nat) : LinesAt script.lines (source.last + 1) ((behind source rest).take length) := by
  obtain ⟨-, last, extent, -⟩ := occupies_of_found here.nonneg found
  have after := here.drop source.extent
  rw [show cursor + 1 + (source.extent : Int) = source.last + 1 by omega] at after
  exact after.take length

theorem TakesTurn.accounted (h : TakesTurn script floor level cursor lines pass stop now)
    (here : LinesAt script.lines cursor lines) : now.Accounted script stop := by
  induction h with
  | first taken => exact (turn_ok taken).accounted here
  | later taken _ ih =>
    obtain ⟨count, -, -, next, behind⟩ := (turn_ok taken).moves here.nonneg
    refine ih ?_
    rw [next, behind]
    exact here.drop count
  | inside _ _ found same _ _ _ _ ih =>
    subst same
    exact ih (here.block found _)

theorem TakesTurn.stop_le (h : TakesTurn script floor level cursor lines pass stop now) (nonneg : 0 ≤ cursor) :
    stop ≤ cursor + lines.length := by
  induction h with
  | first => exact Int.le_refl _
  | later taken _ ih =>
    obtain ⟨count, bound, -, next, behind⟩ := (turn_ok taken).moves nonneg
    have reached := ih (by omega)
    rw [behind, List.length_drop] at reached
    rw [List.length_cons]
    omega
  | inside _ _ found same _ _ _ _ ih =>
    subst same
    obtain ⟨-, last, extent, taken⟩ := occupies_of_found nonneg found
    have reached := ih (by simp only [statementOf]; omega)
    simp only [statementOf, List.length_take, List.length_drop] at reached
    rw [List.length_cons]
    omega

/-! ## Programs -/

/-- The body of a program has its origins among the lines of the script, and each of these that is not blank is
the origin of a generated line. -/
structure Program.Accounted (lines : List Text) (program : Program) : Prop where
  sound : ∀ line ∈ program.body, ∃ origin : Nat, line.origin = some (origin : Int) ∧ origin < lines.length
  complete : ∀ (index : Nat) text, lines[index]? = some text → isBlankLine text = false →
    ∃ line ∈ program.lines, line.origin = some (index : Int)

theorem instrument_accounted (h : instrument source indent callLimit = .ok program) :
    program.Accounted (splitLines source) := by
  obtain ⟨pieces, pass, whole, future, body⟩ := instrument_ok h
  have run := range_ok whole
  constructor
  · intro line mem
    rw [body] at mem
    obtain ⟨piece, listed, mem⟩ := List.mem_flatMap.1 mem
    have within := originsWithin _ _ run (Nat.le_refl _) (Int.le_refl _) (Int.le_refl _) (Int.le_refl _) (by simp)
    obtain ⟨origin, known, low, high⟩ := within piece listed line mem
    refine ⟨origin.toNat, by rw [known, Int.toNat_of_nonneg low], ?_⟩
    simp only [Script.ofSource] at high
    omega
  · intro index text located visible
    have bound := (List.getElem?_eq_some_iff.1 located).1
    have low : (0 : Int) ≤ index := by omega
    rcases (run.reported (Int.le_refl _)).2 low (by simp only [Script.ofSource]; omega) with
      own | hoisted | ⟨text', located', blank⟩
    · obtain ⟨line, mem, known⟩ := reported_iff_renderPieces.1 own
      refine ⟨line, ?_, known⟩
      rw [Program.lines, body]
      exact List.mem_append_right _ mem
    · obtain ⟨position, listed, same⟩ := List.mem_map.1 hoisted
      obtain rfl : position = index := Int.ofNat.inj same
      refine ⟨⟨(splitLines source).getD position [], some (position : Int)⟩, ?_, rfl⟩
      rw [Program.lines, future, List.append_assoc]
      exact List.mem_append_left _ (List.mem_map.2 ⟨position, listed, rfl⟩)
    · simp only [Script.ofSource, Int.sub_zero, Int.toNat_natCast] at located'
      rw [located] at located'
      obtain rfl := Option.some.inj located'
      rw [visible] at blank
      cases blank

/-- Origins are sound and complete, for each turn of a run over a range and for a whole program. -/
theorem origins_sound_and_complete :
    (∀ (script : Script) (start stop : Int) (level : Nat) (pass : Pass) (ending : Int) (now : Turn),
      0 ≤ start → start ≤ stop → stop ≤ script.lines.length →
      TakesTurn script level level start (linesAlong script.lines start stop) pass ending now →
      ending ≤ stop ∧ now.Accounted script ending) ∧
    ∀ (source : Text) (indent : IndentConfig) (callLimit : Int) (program : Program),
      instrument source indent callLimit = .ok program → program.Accounted (splitLines source) := by
  refine ⟨fun script start stop level pass ending now nonneg order bound taken => ⟨?_, ?_⟩,
    fun source indent callLimit program => instrument_accounted⟩
  · have reached := taken.stop_le nonneg
    rw [length_linesAlong nonneg order bound] at reached
    omega
  · exact taken.accounted (linesAt_linesAlong stop nonneg)

def nestedScript : Script where
  lines := List.map String.toList
    ["def f(a,", "      b):  # mock(1, 2)", "    c = [a,", "", "         b]", "f(1, 2)"]
  indent := .standard
  callLimit := 100
  hoisted := []

def nestedHeader : LogicalStatement :=
  assemble 0 "def f(a,".toList (nestedScript.lines.drop 1)

def nestedStatement : Statement :=
  statementOf nestedScript nestedHeader "def f(a,".toList (nestedScript.lines.drop 2)

theorem origins_sound_and_complete_sample :
    (∃ ending now, TakesTurn nestedScript 0 0 0 (linesAlong nestedScript.lines 0 6) .start ending now ∧
      now.cursor = 2 ∧ ending ≤ 6 ∧ now.Accounted nestedScript ending) ∧
    ∃ program, instrument "from __future__ import annotations\nx = (1,\n\n  2)" .standard 100 = .ok program ∧
      program.Accounted (splitLines "from __future__ import annotations\nx = (1,\n\n  2)") := by
  refine ⟨?_, ?_⟩
  · have runs : ((mockedHead nestedScript nestedHeader nestedStatement (nestedScript.lines.drop 2) >>= fun _ =>
        turn nestedScript 1 1 2 "    c = [a,".toList ["".toList, "         b]".toList]).run .start).isOk = true := by
      decide +kernel
    obtain ⟨⟨now, last⟩, run⟩ := exists_ok runs
    obtain ⟨head, between, headed, taken⟩ := run_bind_ok.1 run
    have length : head.length = 3 := by
      have lengths : ((mockedHead nestedScript nestedHeader nestedStatement (nestedScript.lines.drop 2)).run
          .start).toOption.all (fun found => found.1.length == 3) = true := by
        decide +kernel
      rw [headed] at lengths
      exact beq_iff_eq.1 lengths
    have mocks : MocksDef nestedStatement ⟨"f", ["a".toList, "b".toList], "1, 2"⟩ :=
      ⟨by decide +kernel, by decide +kernel, by decide +kernel⟩
    have inside : TakesTurn nestedScript 0 0 0 (linesAlong nestedScript.lines 0 6) .start 5 now := by
      refine .inside rfl rfl (statementIn_of_nonneg (Int.le_refl _) ..) rfl mocks headed ?_ ?_
      · rw [length]
        decide +kernel
      · rw [length]
        exact .first taken
    obtain ⟨-, -, cursor, -⟩ := (turn_ok taken).moves (by decide)
    have accounted := origins_sound_and_complete.1 nestedScript 0 6 0 .start 5 now (by decide) (by decide) (by decide)
      inside
    exact ⟨5, now, inside, cursor, accounted⟩
  · have runs : (instrument "from __future__ import annotations\nx = (1,\n\n  2)" .standard 100).isOk = true := by
      decide +kernel
    obtain ⟨program, h⟩ := exists_ok runs
    exact ⟨program, h, origins_sound_and_complete.2 _ _ _ _ h⟩

end Instrument

end LineProbe
