import LineProbe.Proofs.Blocks

/-!
# Statements that follow each other

What stands between the code of two statements that follow each other in a script.
-/

namespace LineProbe.Instrument

open Text

/-! ## Legs -/

deriving instance DecidableEq for Visit

structure Leg (script : Script) where
  floor : Nat
  level : Nat
  pending : List Piece
  cursor : Int
  lines : List Text
  pass : Pass
  pieces : List Piece
  final : Pass
  runs : Runs script floor level pending cursor lines pass pieces final
  nonneg : 0 ≤ cursor
  here : lines <+: script.lines.drop cursor.toNat

def Leg.ofScript {pieces : List Piece} {pass : Pass} (h : wholeScript script = .ok (pieces, pass)) : Leg script :=
  ⟨0, 0, [], 0, script.lines, .start, pieces, pass, range_ok h, Int.le_refl 0, List.prefix_refl _⟩

def Leg.visits (leg : Leg script) : List Visit :=
  Instrument.visits script leg.cursor leg.lines

def skippedPieces (script : Script) (floor level : Nat) (cursor : Int) (after : List Text) : List Piece :=
  if script.hoisted.contains cursor then [] else blankPieces script cursor floor level after

structure Leg.Stands (leg : Leg script) (line : Text) (rest : List Text) : Prop where
  lines : leg.lines = line :: rest
  kept : script.hoisted.contains leg.cursor = false
  visible : isBlankLine line = false

inductive Leg.Begins (leg : Leg script) (line : Text) (rest : List Text) : Prop where
  | skips (next : Leg script) (skipped : script.hoisted.contains leg.cursor = true ∨ isBlankLine line = true)
    (lines : next.lines = rest) (cursor : next.cursor = leg.cursor + 1) (floor : next.floor = leg.floor)
    (level : next.level = leg.level) (pending : next.pending = []) (visits : leg.visits = next.visits)
    (pieces : leg.pieces = leg.pending ++ skippedPieces script leg.floor leg.level leg.cursor rest ++ next.pieces)
  | states (next : Leg script) {source : LogicalStatement} {step : Step} {after : Pass} (stands : leg.Stands line rest)
    (found : assemble leg.cursor line rest = source)
    (stepped : Stepped script source (statementOf script source line (behind source rest)) leg.pass step after)
    (lines : next.lines = behind source rest) (cursor : next.cursor = source.last + 1) (floor : next.floor = leg.floor)
    (level : next.level = step.nextLevel) (pending : next.pending = step.prologue)
    (visits : leg.visits = ⟨source, none⟩ :: next.visits)
    (pieces : leg.pieces = placePrologue (Construct.isDocstring line) leg.pending step.pieces ++ next.pieces)
  | mocks (next : Leg script) {source : LogicalStatement} {st : Statement} {mock : MockedDef} {block : List Text}
    {guards body : List Piece} {shadow : Temp} {before after : Pass} (stands : leg.Stands line rest)
    (found : assemble leg.cursor line rest = source)
    (same : st = statementOf script source line (behind source rest)) (mocks : MocksDef st mock)
    (cut : behind source rest = block ++ next.lines) (cursor : next.cursor = source.last + 1 + block.length)
    (guarded : Guards st (st.level + 1) before guards after)
    (outside : ∀ line ∈ next.lines.head?, isBlankLine line = false ∧ script.indent.measure line ≤ st.level)
    (inside : Deeper script st.level (source.last + 1) block)
    (copied : (∃ inner : Leg script, inner.lines = block ∧ inner.cursor = source.last + 1 ∧
        inner.floor = st.level + 1 ∧ inner.level = st.level + 1 ∧ inner.pending = mockedPrologue st mock ∧
        inner.pieces = body) ∨ ∀ line ∈ block, isBlankLine line = true)
    (pending : next.pending = [])
    (visits : leg.visits = ⟨source, some block⟩ :: (Instrument.visits script (source.last + 1) block ++ next.visits))
    (pieces : leg.pieces = placePrologue (Construct.isDocstring line) leg.pending
      (mockedPieces script.indent source st block mock shadow guards body) ++ next.pieces)

theorem Leg.begins (leg : Leg script) (h : leg.lines = line :: rest) : leg.Begins line rest := by
  obtain ⟨floor, level, pending, cursor, lines, pass, pieces, final, runs, nonneg, here⟩ := leg
  obtain rfl : lines = line :: rest := h
  have tail {next : Int} (count : Nat) (moved : next = cursor + 1 + count) :
      rest.drop count <+: script.lines.drop next.toNat :=
    drop_here nonneg (count + 1) (by omega) here
  have last := last_assemble cursor line rest
  have extent := extent_assemble cursor line rest
  cases runs with
  | hoisted hoisted run =>
    refine .skips ⟨_, _, _, _, _, _, _, _, run, by omega, by simpa using tail 0 (by omega)⟩ (.inl hoisted) rfl rfl rfl rfl
      rfl (visits_skipped (.inl hoisted)) ?_
    simp only [skippedPieces, hoisted, if_true, List.append_nil]
  | blank kept blank run =>
    refine .skips ⟨_, _, _, _, _, _, _, _, run, by omega, by simpa using tail 0 (by omega)⟩ (.inr blank) rfl rfl rfl rfl
      rfl (visits_skipped (.inr blank)) ?_
    simp only [skippedPieces, kept, Bool.false_eq_true, if_false]
  | statement kept visible found unmocked stepped run =>
    obtain rfl := assemble_eq_of_found nonneg found
    exact .states ⟨_, _, _, _, _, _, _, _, run, by omega, tail _ (by omega)⟩ ⟨rfl, kept, visible⟩ rfl stepped rfl rfl rfl
      rfl rfl (visits_statement kept visible unmocked) rfl
  | @mocked _ _ _ guards body _ _ _ _ source st mock stop block _ _ _ _ kept visible found same mocks stops cut guarded
      filled inner run =>
    obtain rfl := assemble_eq_of_found nonneg found
    subst cut
    have bound := lengthBefore_le (by omega) stops
    have size := List.length_take_of_le bound
    have start : 0 ≤ (assemble cursor line rest).last + 1 := by omega
    have split := blockEnd?_cut start stops
    have there : behind (assemble cursor line rest) rest <+:
        script.lines.drop ((assemble cursor line rest).last + 1).toNat := tail _ (by omega)
    have inside := (List.take_prefix (lengthBefore ((assemble cursor line rest).last + 1)
      (behind (assemble cursor line rest) rest) stop) _).trans there
    refine .mocks ⟨_, _, _, _, _, _, _, _, run, by omega, ?_⟩ ⟨rfl, kept, visible⟩ rfl same mocks
      (List.take_append_drop _ _).symm (by rw [size]) guarded split.outside split.inside
      (.inl ⟨⟨_, _, _, _, _, _, _, _, inner, start, inside⟩, ?_⟩) rfl
      (visits_mocked kept visible rfl rfl (same ▸ mocks) (same ▸ stops)) rfl
    · rw [List.drop_drop]
      exact tail _ (by omega)
    · exact ⟨rfl, rfl, rfl, rfl, rfl, rfl⟩
  | mockedEmpty kept visible found same mocks stops cut guarded empty run =>
    obtain rfl := assemble_eq_of_found nonneg found
    subst cut
    have bound := lengthBefore_le (by omega) stops
    have size := List.length_take_of_le bound
    have split := blockEnd?_cut (by omega) stops
    refine .mocks ⟨_, _, _, _, _, _, _, _, run, by omega, ?_⟩ ⟨rfl, kept, visible⟩ rfl same mocks
      (List.take_append_drop _ _).symm (by rw [size]) guarded split.outside split.inside
      (.inr (blank_of_not_hasBody (by omega) stops empty)) rfl
      (visits_mocked kept visible rfl rfl (same ▸ mocks) (same ▸ stops)) rfl
    rw [List.drop_drop]
    exact tail _ (by omega)

theorem visits_of_blank (cursor : Int) (blank : ∀ line ∈ lines, isBlankLine line) :
    visits script cursor lines = [] := by
  induction lines generalizing cursor with
  | nil => rw [visits]
  | cons line rest ih =>
    rw [List.forall_mem_cons] at blank
    rw [visits_skipped (.inr blank.1), ih _ blank.2]

namespace Leg

theorem visits_nil {leg : Leg script} (h : leg.lines = []) : leg.visits = [] := by
  rw [visits, h, Instrument.visits]

/-! ## The lines before the first statement -/

def gapPieces (script : Script) (floor level : Nat) (cursor : Int) (after : List Text) : List Text → List Piece
  | [] => []
  | _ :: skipped =>
    skippedPieces script floor level cursor (skipped ++ after) ++ gapPieces script floor level (cursor + 1) after skipped

structure Skips (leg part : Leg script) (skipped : List Text) (line : Text) (rest : List Text) : Prop where
  stands : part.Stands line rest
  lines : leg.lines = skipped ++ line :: rest
  cursor : part.cursor = leg.cursor + skipped.length
  floor : part.floor = leg.floor
  level : part.level = leg.level
  visits : part.visits = leg.visits
  pending : part.pending = if skipped = [] then leg.pending else []
  pieces : leg.pieces = (if skipped = [] then []
    else leg.pending ++ gapPieces script leg.floor leg.level leg.cursor (line :: rest) skipped) ++ part.pieces

theorem skip (leg : Leg script) (some_ : leg.visits ≠ []) :
    ∃ part skipped line rest, leg.Skips part skipped line rest := by
  induction size : leg.lines.length generalizing leg with
  | zero => exact absurd (visits_nil (List.length_eq_zero_iff.1 size)) some_
  | succ size_ ih =>
    obtain ⟨line, rest, lines⟩ := List.exists_cons_of_length_eq_add_one size
    have alone (stands : leg.Stands line rest) : leg.Skips leg [] line rest :=
      ⟨stands, by simp [lines], by simp, rfl, rfl, rfl, by simp, by simp⟩
    cases leg.begins lines with
    | states _ stands | mocks _ stands => exact ⟨leg, [], line, rest, alone stands⟩
    | skips next _ nextLines cursor floor level pending visits pieces =>
      have shorter : next.lines.length = size_ := by
        rw [lines, List.length_cons] at size
        rw [nextLines]
        omega
      obtain ⟨part, others, first, behind, h⟩ := ih next (visits ▸ some_) shorter
      have gap : next.pieces = gapPieces script leg.floor leg.level (leg.cursor + 1) (first :: behind) others ++
          part.pieces := by
        rw [h.pieces, pending, floor, level, cursor]
        by_cases empty : others = [] <;> simp [empty, gapPieces]
      refine ⟨part, line :: others, first, behind, h.stands, ?_, ?_, h.floor.trans floor, h.level.trans level, ?_, ?_, ?_⟩
      · rw [lines, ← nextLines, h.lines]
        rfl
      · rw [h.cursor, cursor, List.length_cons]
        omega
      · rw [h.visits, visits]
      · rw [h.pending, pending]
        simp
      · rw [pieces, gap, if_neg (by simp), gapPieces, ← nextLines, h.lines]
        simp only [List.append_assoc]

/-! ## Neighbours -/

theorem bounds (leg : Leg script) (mem : visit ∈ leg.visits) :
    leg.cursor ≤ visit.source.first ∧ visit.source.last < leg.cursor + leg.lines.length := by
  induction size : leg.lines.length using Nat.strongRecOn generalizing leg with
  | ind size_ ih =>
    subst size
    cases lines : leg.lines with
    | nil =>
      rw [visits_nil lines] at mem
      cases mem
    | cons line rest =>
      rw [lines] at ih
      have first := first_assembleFrom leg.cursor .closed 0 line rest
      have last := last_assemble leg.cursor line rest
      have extent := extent_assemble leg.cursor line rest
      have taken := length_before_assemble_le leg.cursor line rest
      have own : leg.cursor ≤ (assemble leg.cursor line rest).first ∧
          (assemble leg.cursor line rest).last < leg.cursor + (line :: rest).length := by
        rw [assemble, first]
        rw [assemble] at last taken
        simp only [List.length_cons]
        omega
      have later {next : Leg script} (count : Nat) (bounded : count ≤ rest.length)
          (cursor : next.cursor = leg.cursor + 1 + count) (left : next.lines.length ≤ rest.length - count)
          (mem : visit ∈ next.visits) :
          leg.cursor ≤ visit.source.first ∧ visit.source.last < leg.cursor + (line :: rest).length := by
        have inner := ih next.lines.length (by simp only [List.length_cons]; omega) next mem rfl
        simp only [List.length_cons]
        omega
      cases leg.begins lines with
      | skips next _ nextLines cursor _ _ _ visits _ =>
        rw [visits] at mem
        exact later 0 (Nat.zero_le _) (by omega) (by simp [nextLines]) mem
      | states next _ found _ nextLines cursor _ _ _ visits _ =>
        subst found
        rw [visits] at mem
        rcases List.mem_cons.1 mem with rfl | mem
        · exact own
        · exact later _ taken (by omega) (by simp [nextLines, extent]) mem
      | @mocks next _ _ _ block _ _ _ _ _ _ found _ _ cut cursor _ _ _ copied _ visits _ =>
        subst found
        have parts := congrArg List.length cut
        rw [List.length_append, List.length_drop, extent] at parts
        rw [visits] at mem
        rcases List.mem_cons.1 mem with rfl | mem
        · exact own
        rcases List.mem_append.1 mem with mem | mem
        · rcases copied with ⟨inner, innerLines, innerCursor, -⟩ | blank
          · rw [← innerCursor, ← innerLines] at mem
            exact later _ taken (by omega) (by rw [innerLines]; omega) mem
          · rw [visits_of_blank _ blank] at mem
            cases mem
        · exact later ((assemble leg.cursor line rest).before.length + block.length) (by omega) (by omega) (by omega) mem

theorem exists_placePrologue (documents : Bool) (pending pieces : List Piece) :
    ∃ front back, placePrologue documents pending pieces = front ++ pieces ++ back := by
  unfold placePrologue
  split
  · exact ⟨[], pending, rfl⟩
  · exact ⟨pending, [], (List.append_nil _).symm⟩

theorem exists_copied (config : IndentConfig) (source : LogicalStatement) (st : Statement) (block : List Text)
    (mocked : MockedDef) (shadow : Temp) (guards body : List Piece) (documents : Bool) (pending : List Piece) :
    ∃ front back, placePrologue documents pending (mockedPieces config source st block mocked shadow guards body) =
      front ++ body ++ st.inject st.level (.callMock shadow mocked.arguments) :: back := by
  obtain ⟨front, back, whole⟩ :=
    exists_placePrologue documents pending (mockedPieces config source st block mocked shadow guards body)
  refine ⟨front ++ (.header source.text st.first st.last :: guards ++ writtenBody config st block) ++
    [.header (renameDef mocked.name shadow.name none source.text) st.first st.last], back, ?_⟩
  rw [whole, mockedPieces]
  simp

theorem infix_of_copied {leg : Leg script}
    (whole : leg.pieces =
      placePrologue documents leg.pending (mockedPieces config source st block mocked shadow guards body) ++ later) :
    body <:+: leg.pieces := by
  obtain ⟨front, back, copied⟩ := exists_copied config source st block mocked shadow guards body documents leg.pending
  refine ⟨front, st.inject st.level (.callMock shadow mocked.arguments) :: back ++ later, ?_⟩
  rw [whole, copied]
  simp

theorem infix_of_behind {leg next : Leg script} (whole : leg.pieces = front ++ next.pieces) :
    next.pieces <:+: leg.pieces :=
  whole ▸ (List.suffix_append _ _).isInfix

theorem last (leg : Leg script) {earlier : List Visit} {visit : Visit} (h : leg.visits = earlier ++ [visit]) :
    ∃ (part : Leg script) (line : Text) (rest : List Text), part.Stands line rest ∧ part.visits = [visit] ∧
      part.pieces <:+: leg.pieces := by
  induction size : leg.lines.length using Nat.strongRecOn generalizing leg earlier with
  | ind size_ ih =>
    subst size
    cases lines : leg.lines with
    | nil => simp [visits_nil lines] at h
    | cons line rest =>
      rw [lines] at ih
      have later {next : Leg script} {earlier : List Visit} (shorter : next.lines.length ≤ rest.length)
          (h : next.visits = earlier ++ [visit]) (inside : next.pieces <:+: leg.pieces) :
          ∃ (part : Leg script) (line : Text) (rest : List Text), part.Stands line rest ∧ part.visits = [visit] ∧
            part.pieces <:+: leg.pieces := by
        obtain ⟨part, line, rest, stands, visits, within⟩ := ih _ (Nat.lt_succ_of_le shorter) next h rfl
        exact ⟨part, line, rest, stands, visits, within.trans inside⟩
      cases leg.begins lines with
      | skips next _ nextLines _ _ _ _ visits pieces =>
        exact later (by simp [nextLines]) (visits ▸ h) (infix_of_behind pieces)
      | states next stands _ _ nextLines _ _ _ _ visits pieces =>
        rw [h] at visits
        rcases List.append_eq_cons_iff.1 visits with ⟨rfl, same⟩ | ⟨earlier, rfl, same⟩
        · exact ⟨leg, line, rest, stands, by simpa using h, List.infix_rfl⟩
        · exact later (by simp [nextLines]) same (infix_of_behind pieces)
      | @mocks next _ st mock block _ body shadow _ _ stands _ _ _ cut _ _ _ _ copied _ visits pieces =>
        have size := congrArg List.length cut
        rw [List.length_drop, List.length_append] at size
        rw [h] at visits
        rcases List.append_eq_cons_iff.1 visits with ⟨rfl, -⟩ | ⟨earlier, rfl, same⟩
        · exact ⟨leg, line, rest, stands, by simpa using h, List.infix_rfl⟩
        rcases List.eq_nil_or_concat next.visits with none_ | ⟨others, final, some_⟩
        · rw [none_, List.append_nil] at same
          rcases copied with ⟨inner, innerLines, innerCursor, -, -, -, rfl⟩ | blank
          · rw [← innerCursor, ← innerLines] at same
            exact later (by rw [innerLines]; omega) same (infix_of_copied pieces)
          · simp [visits_of_blank _ blank] at same
        · rw [List.concat_eq_append] at some_
          rw [some_, ← List.append_assoc] at same
          obtain ⟨rfl, last⟩ := List.append_inj' same rfl
          cases last
          exact later (by omega) some_ (infix_of_behind pieces)

/-- The block of a mocked function ends between two statements. -/
def EndsBetween (earlier : List Visit) (visit next : Visit) : Prop :=
  ∃ mocked ∈ earlier, ∃ block, mocked.block = some block ∧
    visit.source.last < mocked.source.last + 1 + block.length ∧
      mocked.source.last + 1 + block.length ≤ next.source.first

inductive Joins (leg : Leg script) (earlier : List Visit) (visit next : Visit) : Prop where
  | together (part : Leg script) {line : Text} {rest : List Text} {later : List Visit} (stands : part.Stands line rest)
    (visits : part.visits = visit :: next :: later) (inside : part.pieces <:+: leg.pieces)
  | apart (part other : Leg script) {line : Text} {rest : List Text} {later : List Visit}
    (front between back : List Piece) (stands : part.Stands line rest) (visits : part.visits = [visit])
    (others : other.visits = next :: later)
    (whole : leg.pieces = front ++ part.pieces ++ between ++ other.pieces ++ back)
    (called : ∃ level shadow arguments origin, .injected level (.callMock shadow arguments) origin ∈ between)
    (ends : EndsBetween earlier visit next) (behind : visit.source.last < other.cursor) (level : Nat)
    (outside : ∀ line ∈ other.lines.head?, isBlankLine line = false ∧ script.indent.measure line ≤ level)
    (inside : script.Flush → level < script.indent.measure visit.source.opening)

theorem Joins.widen {leg sub : Leg script} (h : sub.Joins within visit next) (inside : sub.pieces <:+: leg.pieces)
    (among : within ⊆ earlier) : leg.Joins earlier visit next := by
  cases h with
  | together part stands visits part_inside => exact .together part stands visits (part_inside.trans inside)
  | apart part other front between back stands visits others whole called ends behind level outside deep =>
    obtain ⟨before, after, pieces⟩ := inside
    obtain ⟨mocked, mem, ends⟩ := ends
    refine .apart part other (before ++ front) between (back ++ after) stands visits others ?_ called
      ⟨mocked, among mem, ends⟩ behind level outside deep
    rw [← pieces, whole]
    simp

theorem joins (leg : Leg script) (h : leg.visits = earlier ++ visit :: next :: later) :
    leg.Joins earlier visit next := by
  induction size : leg.lines.length using Nat.strongRecOn generalizing leg earlier later with
  | ind size_ ih =>
    subst size
    cases lines : leg.lines with
    | nil => simp [visits_nil lines] at h
    | cons line rest =>
      rw [lines] at ih
      have inner {sub : Leg script} {within later : List Visit} (shorter : sub.lines.length ≤ rest.length)
          (h : sub.visits = within ++ visit :: next :: later) (inside : sub.pieces <:+: leg.pieces)
          (among : within ⊆ earlier) : leg.Joins earlier visit next :=
        (ih _ (Nat.lt_succ_of_le shorter) sub h rfl).widen inside among
      cases leg.begins lines with
      | skips sub _ nextLines _ _ _ _ visits pieces =>
        exact inner (by simp [nextLines]) (visits ▸ h) (infix_of_behind pieces) (List.Subset.refl _)
      | states sub stands _ _ nextLines _ _ _ _ visits pieces =>
        rw [h] at visits
        rcases List.append_eq_cons_iff.1 visits with ⟨rfl, same⟩ | ⟨earlier, rfl, same⟩
        · exact .together leg stands h List.infix_rfl
        · exact inner (by simp [nextLines]) same (infix_of_behind pieces) (List.subset_cons_self _ _)
      | @mocks sub _ st mock block _ body shadow _ _ stands _ _ _ cut cursor _ outside inside copied _ visits pieces =>
        have size := congrArg List.length cut
        rw [List.length_drop, List.length_append] at size
        rw [h] at visits
        rcases List.append_eq_cons_iff.1 visits with ⟨rfl, -⟩ | ⟨earlier, rfl, same⟩
        · exact .together leg stands h List.infix_rfl
        rcases copied with ⟨copy, copyLines, copyCursor, -, -, -, rfl⟩ | blank
        · rw [← copyCursor, ← copyLines] at same
          obtain ⟨front, back, whole⟩ := exists_copied script.indent _ st block mock shadow _ copy.pieces
            (Construct.isDocstring line) leg.pending
          rcases List.append_eq_append_iff.1 same with ⟨among, rfl, right⟩ | ⟨ahead, left, right⟩
          · exact inner (by omega) right (infix_of_behind pieces) fun _ mem =>
              List.mem_cons_of_mem _ (List.mem_append_right _ mem)
          rcases ahead with _ | ⟨final, _ | ⟨other, ahead⟩⟩
          · have right : sub.visits = [] ++ visit :: next :: later := right.symm
            exact inner (by omega) right (infix_of_behind pieces) (List.nil_subset _)
          · -- The first one is the last statement of the block, the second one stands behind the block.
            obtain ⟨rfl, behind⟩ : visit = final ∧ sub.visits = next :: later := by simpa [eq_comm] using right
            obtain ⟨part, first, others, partStands, partVisits, before, after, found⟩ := copy.last left
            have above : sub.cursor ≤ next.source.first := (sub.bounds (by rw [behind]; exact List.mem_cons_self)).1
            have among : visit ∈ copy.visits := by
              rw [Leg.visits, left]
              simp
            have below := (copy.bounds among).2
            have deep (flush : script.Flush) := deeper_of_visits flush copy.nonneg copy.here
              (by rw [copyCursor, copyLines]; exact inside) visit among
            rw [copyCursor, copyLines] at below
            refine .apart part sub (front ++ before)
              (after ++ st.inject st.level (.callMock shadow mock.arguments) :: back) [] partStands partVisits behind ?_
              ⟨_, _, _, _, List.mem_append_right _ List.mem_cons_self⟩
              ⟨_, List.mem_cons_self, block, rfl, below, cursor ▸ above⟩ (by omega) st.level outside deep
            rw [pieces, whole, ← found]
            simp
          · obtain ⟨rfl, rfl, -⟩ : visit = final ∧ next = other ∧ later = ahead ++ sub.visits := by simpa using right
            exact inner (by rw [copyLines]; omega) left (infix_of_copied pieces) (List.subset_cons_self _ _)
        · rw [visits_of_blank _ blank, List.nil_append] at same
          exact inner (by omega) same (infix_of_behind pieces) (List.subset_cons_self _ _)

/-! ## One statement -/

theorem Stands.not_skipped {leg : Leg script} (stands : leg.Stands line rest) :
    ¬ (script.hoisted.contains leg.cursor ∨ isBlankLine line) := by
  rw [stands.kept, stands.visible]
  simp

theorem Stands.found {leg : Leg script} {line : Text} {rest : List Text} {visit : Visit} {later : List Visit}
    (stands : leg.Stands line rest) (h : leg.visits = visit :: later) : assemble leg.cursor line rest = visit.source := by
  cases leg.begins stands.lines with
  | skips _ skipped => exact absurd skipped stands.not_skipped
  | states _ _ found _ _ _ _ _ _ visits | mocks _ _ found _ _ _ _ _ _ _ _ _ visits =>
    rw [h] at visits
    cases visits
    exact found

structure Takes (leg next : Leg script) (line : Text) (rest : List Text) (source : LogicalStatement) (step : Step) :
    Prop where
  found : assemble leg.cursor line rest = source
  stepped : ∃ after, Stepped script source (statementOf script source line (behind source rest)) leg.pass step after
  lines : next.lines = behind source rest
  cursor : next.cursor = source.last + 1
  level : next.level = step.nextLevel
  pending : next.pending = step.prologue
  pieces : leg.pieces = placePrologue (Construct.isDocstring line) leg.pending step.pieces ++ next.pieces

theorem Stands.takes {leg : Leg script} (stands : leg.Stands line rest) (h : leg.visits = ⟨source, none⟩ :: later) :
    ∃ next step, leg.Takes next line rest source step ∧ next.visits = later := by
  cases leg.begins stands.lines with
  | skips _ skipped => exact absurd skipped stands.not_skipped
  | @states next found _ _ _ same stepped lines cursor _ level pending visits pieces =>
    rw [h, List.cons.injEq, Visit.mk.injEq] at visits
    obtain ⟨⟨rfl, -⟩, rfl⟩ := visits
    exact ⟨next, _, ⟨same, ⟨_, stepped⟩, lines, cursor, level, pending, pieces⟩, rfl⟩
  | mocks _ _ _ _ _ _ _ _ _ _ _ _ visits =>
    rw [h] at visits
    cases visits

end Leg

/-! ## Blank lines between neighbours -/

end LineProbe.Instrument

namespace LineProbe

namespace LogicalStatement

def endsAsDecorator (source : LogicalStatement) : Bool :=
  (source.lines.reverse.find? (!isBlankLine ·)).any fun line => (Text.trimLeft line).head? == some '@'

end LogicalStatement

variable {after rest skipped : List Text}

namespace Instrument

def blankProbes (script : Script) (level : Nat) (cursor : Int) (count : Nat) : List Piece :=
  (((List.range count).map fun (offset : Nat) => cursor + offset).filter (!script.hoisted.contains ·)).map
    fun origin => .injected level (.probe none) origin

theorem blankProbes_succ (level : Nat) (cursor : Int) (count : Nat) :
    blankProbes script level cursor (count + 1) =
      (if script.hoisted.contains cursor then [] else [.injected level (.probe none) cursor]) ++
        blankProbes script level (cursor + 1) count := by
  have shift : ((List.range count).map Nat.succ).map (fun (offset : Nat) => cursor + (offset : Int)) =
      (List.range count).map fun (offset : Nat) => cursor + 1 + (offset : Int) := by
    rw [List.map_map]
    refine List.map_congr_left fun offset _ => ?_
    simp only [Function.comp_apply]
    omega
  rw [blankProbes, List.range_succ_eq_map, List.map_cons, shift, Int.natCast_zero, Int.add_zero, List.filter_cons]
  cases script.hoisted.contains cursor <;> rfl

def reportLevel? (config : IndentConfig) (level : Nat) (next : Text) : Option Nat :=
  if isClauseLine next then if level ≤ config.measure next then none else some level
  else some (min level (config.measure next))

theorem gapPieces_of_blank (floor level : Nat) (blank : ∀ line ∈ skipped, isBlankLine line)
    (visible : isBlankLine line = false)
    (behind : ∀ offset < skipped.length, followsDecorator script (cursor + offset) = follows) :
    Leg.gapPieces script floor level cursor (line :: rest) skipped =
      if follows then []
      else (reportLevel? script.indent level line).elim [] fun level =>
        blankProbes script level cursor skipped.length := by
  induction skipped generalizing cursor with
  | nil =>
    rw [Leg.gapPieces]
    cases follows <;> cases reportLevel? script.indent level line <;> rfl
  | cons first skipped ih =>
    rw [List.forall_mem_cons] at blank
    have here : followsDecorator script cursor = follows := by simpa using behind 0 (by simp)
    have later := ih blank.2 fun offset inside => by
      have := behind (offset + 1) (by simpa using inside)
      rwa [show cursor + ((offset + 1 : Nat) : Int) = cursor + 1 + (offset : Int) by omega] at this
    have next : nextCode? (skipped ++ line :: rest) = some line := by
      rw [nextCode?, List.find?_append, List.find?_eq_none.2 (by simpa using blank.2)]
      simp [visible]
    have level_ : blankLevel? script cursor floor level (skipped ++ line :: rest) =
        if follows then none else reportLevel? script.indent level line := by
      rw [blankLevel?, here, next]
      rfl
    rw [Leg.gapPieces, later, skippedPieces, blankPieces, level_]
    cases follows with
    | true => simp
    | false =>
      cases reportLevel? script.indent level line with
      | none => simp
      | some level => simp [blankProbes_succ]

def BlankBetween (script : Script) (source target : LogicalStatement) : Prop :=
  ∀ position, source.last < position → position < target.first →
    ∀ line ∈ script.lines[position.toNat]?, isBlankLine line = true

namespace Leg

theorem followsDecorator_behind {leg : Leg script} (stands : leg.Stands line rest)
    (cut : behind (assemble leg.cursor line rest) rest = skipped ++ after) (blank : ∀ line ∈ skipped, isBlankLine line)
    (inside : offset ≤ skipped.length) :
    followsDecorator script ((assemble leg.cursor line rest).last + 1 + offset) =
      (assemble leg.cursor line rest).endsAsDecorator := by
  have nonneg := leg.nonneg
  have last := last_assemble leg.cursor line rest
  have extent := extent_assemble leg.cursor line rest
  obtain ⟨more, whole⟩ := leg.here
  have before : script.lines.take ((assemble leg.cursor line rest).last + 1 + offset).toNat =
      script.lines.take leg.cursor.toNat ++ (assemble leg.cursor line rest).lines ++ skipped.take offset := by
    have size : ((assemble leg.cursor line rest).last + 1 + offset).toNat =
        leg.cursor.toNat + ((assemble leg.cursor line rest).extent + offset + 1) := by omega
    have taken := length_before_assemble_le leg.cursor line rest
    have own : (rest.take (assemble leg.cursor line rest).extent).length = (assemble leg.cursor line rest).extent :=
      List.length_take_of_le (by omega)
    have parts : rest ++ more = rest.take (assemble leg.cursor line rest).extent ++ (skipped ++ (after ++ more)) := by
      rw [← List.append_assoc skipped, ← cut, ← List.append_assoc, List.take_append_drop]
    have front : (rest.take (assemble leg.cursor line rest).extent).take
        ((assemble leg.cursor line rest).extent + offset) = rest.take (assemble leg.cursor line rest).extent :=
      List.take_of_length_le (by omega)
    rw [size, List.take_add, ← whole, stands.lines, List.cons_append, List.take_succ_cons, parts, lines_assemble,
      List.take_append, front, own, Nat.add_sub_cancel_left, List.take_append_of_le_length inside]
    simp
  obtain ⟨seen, found⟩ : ∃ seen, (assemble leg.cursor line rest).lines.reverse.find? (!isBlankLine ·) = some seen := by
    rw [← Option.isSome_iff_exists, List.find?_isSome]
    exact ⟨line, by rw [lines_assemble]; simp, by simp [stands.visible]⟩
  have unseen : (skipped.take offset).reverse.find? (!isBlankLine ·) = none := by
    rw [List.find?_eq_none]
    intro line mem
    simp [blank line (List.mem_of_mem_take (List.mem_reverse.1 mem))]
  rw [followsDecorator, before, LogicalStatement.endsAsDecorator]
  simp only [List.reverse_append, List.find?_append, unseen, found, Option.none_or, Option.some_or]

theorem Skips.blank {leg part : Leg script} {skipped rest : List Text} {line : Text}
    (h : leg.Skips part skipped line rest)
    (blank : ∀ position, leg.cursor ≤ position → position < part.cursor →
      ∀ line ∈ script.lines[position.toNat]?, isBlankLine line) :
    ∀ line ∈ skipped, isBlankLine line := by
  intro text mem
  obtain ⟨offset, bound, rfl⟩ := List.mem_iff_getElem.1 mem
  have nonneg := leg.nonneg
  have cursor := h.cursor
  obtain ⟨more, whole⟩ := leg.here
  refine blank (leg.cursor + offset) (by omega) (by omega) _ ?_
  rw [show (leg.cursor + (offset : Int)).toNat = leg.cursor.toNat + offset by omega, ← List.getElem?_drop, ← whole,
    h.lines, List.append_assoc, List.getElem?_append_left bound, List.getElem?_eq_getElem bound]
  rfl

theorem nextCode?_lines {leg : Leg script} (visits : leg.visits = visit :: later)
    (blank : ∀ position, leg.cursor ≤ position → position < visit.source.first →
      ∀ line ∈ script.lines[position.toNat]?, isBlankLine line) :
    nextCode? leg.lines = some visit.source.opening := by
  obtain ⟨part, skipped, first, others, skips⟩ := leg.skip (by simp [visits])
  have same := skips.stands.found (skips.visits.trans visits)
  have opening : visit.source.opening = first := by
    rw [← same, LogicalStatement.opening, headD_lines_assemble]
  have start : visit.source.first = part.cursor := by rw [← same, assemble, first_assembleFrom]
  have blanks := skips.blank (start ▸ blank)
  rw [nextCode?, skips.lines, List.find?_append, List.find?_eq_none.2 (by simpa using blanks), opening]
  simp [skips.stands.visible]

theorem gap_of_blank {leg next part : Leg script} (stands : leg.Stands line rest)
    (cut : behind (assemble leg.cursor line rest) rest = next.lines ++ after)
    (cursor : next.cursor = (assemble leg.cursor line rest).last + 1) (skips : next.Skips part skipped first others)
    (blank : ∀ line ∈ skipped, isBlankLine line) :
    gapPieces script next.floor next.level next.cursor (first :: others) skipped =
      if (assemble leg.cursor line rest).endsAsDecorator then []
      else (reportLevel? script.indent next.level first).elim [] fun level =>
        blankProbes script level next.cursor skipped.length := by
  apply gapPieces_of_blank next.floor next.level blank skips.stands.visible
  intro offset inside
  rw [skips.lines, List.append_assoc] at cut
  rw [cursor]
  exact followsDecorator_behind stands cut blank (Nat.le_of_lt inside)

def gap (script : Script) (level : Nat) (source target : LogicalStatement) : List Piece :=
  if source.endsAsDecorator then []
  else (reportLevel? script.indent level target.opening).elim [] fun level =>
    blankProbes script level (source.last + 1) (target.first - source.last - 1).toNat

theorem gap_of_near (level : Nat) (near : source.last + 1 = target.first) : gap script level source target = [] := by
  have none_ : (target.first - source.last - 1).toNat = 0 := by omega
  rw [gap, none_]
  cases reportLevel? script.indent level target.opening <;> exact ite_self _

structure Comes (next part : Leg script) (source target : LogicalStatement) : Prop where
  pending : part.pending = if source.last + 1 = target.first then next.pending else []
  pieces : next.pieces = (if source.last + 1 = target.first then []
    else next.pending ++ gap script next.level source target) ++ part.pieces

theorem come {leg next : Leg script} (stands : leg.Stands line rest) (found : assemble leg.cursor line rest = source)
    (cut : behind source rest = next.lines ++ after) (cursor : next.cursor = source.last + 1)
    (visits : next.visits = visit :: later) (blank : BlankBetween script source visit.source) :
    ∃ (part : Leg script) (first : Text) (others : List Text), part.Stands first others ∧ part.visits = visit :: later ∧
      next.Comes part source visit.source := by
  obtain ⟨part, skipped, first, others, skips⟩ := next.skip (by simp [visits])
  have same := skips.stands.found (skips.visits.trans visits)
  have opening : visit.source.opening = first := by
    rw [← same, LogicalStatement.opening, headD_lines_assemble]
  have start : visit.source.first = source.last + 1 + skipped.length := by
    rw [← same, assemble, first_assembleFrom, skips.cursor, cursor]
  have near : source.last + 1 = visit.source.first ↔ skipped = [] := by
    rw [start, ← List.length_eq_zero_iff]
    omega
  have blanks : ∀ line ∈ skipped, isBlankLine line := by
    refine skips.blank fun position above below => blank position (by omega) ?_
    rw [skips.cursor, cursor] at below
    omega
  refine ⟨part, first, others, skips.stands, skips.visits.trans visits, ?_, ?_⟩
  · simp only [near, skips.pending]
  · subst found
    rw [skips.pieces, gap_of_blank stands cut cursor skips blanks, gap, opening, cursor,
      show (visit.source.first - (assemble leg.cursor line rest).last - 1).toNat = skipped.length by omega]
    simp only [near]

/-- What becomes of the lines between two statements, if they are blank and the second statement is no clause. -/
def between (script : Script) (level : Nat) (source target : LogicalStatement) : List Piece :=
  if source.endsAsDecorator then []
  else blankProbes script (min level (script.indent.measure target.opening)) (source.last + 1)
    (target.first - source.last - 1).toNat

theorem gap_of_other (level : Nat) (source : LogicalStatement) (other : isClauseLine target.opening = false) :
    gap script level source target = between script level source target := by
  rw [gap, reportLevel?, other]
  rfl

theorem between_of_near (level : Nat) (near : source.last + 1 = target.first) :
    between script level source target = [] := by
  have none_ : (target.first - source.last - 1).toNat = 0 := by omega
  rw [between, none_]
  exact ite_self _

inductive Reaches (next part : Leg script) (source target : LogicalStatement) : Prop where
  | atOnce (near : source.last + 1 = target.first) (pending : part.pending = next.pending)
    (pieces : next.pieces = part.pieces)
  | behindBlanks (far : source.last + 1 < target.first) (pending : part.pending = [])
    (pieces : next.pieces = next.pending ++ between script next.level source target ++ part.pieces)

theorem reach {leg next : Leg script} (stands : leg.Stands line rest) (found : assemble leg.cursor line rest = source)
    (cut : behind source rest = next.lines ++ after) (cursor : next.cursor = source.last + 1)
    (visits : next.visits = visit :: later) (blank : BlankBetween script source visit.source)
    (other : ∀ {cursor : Int} {line : Text} {rest : List Text}, isBlankLine line = false →
      assemble cursor line rest = visit.source → isClauseLine line = false) :
    ∃ (part : Leg script) (first : Text) (others : List Text), part.Stands first others ∧ part.visits = visit :: later ∧
      next.Reaches part source visit.source := by
  obtain ⟨part, first, others, there, visits', comes⟩ := come stands found cut cursor visits blank
  have same := there.found visits'
  have opening : visit.source.opening = first := by
    rw [← same, LogicalStatement.opening, headD_lines_assemble]
  have order : source.last + 1 ≤ visit.source.first :=
    cursor ▸ (next.bounds (by rw [visits]; exact List.mem_cons_self)).1
  refine ⟨part, first, others, there, visits', ?_⟩
  have pending := comes.pending
  have pieces := comes.pieces
  by_cases near : source.last + 1 = visit.source.first
  · rw [if_pos near] at pending pieces
    exact .atOnce near pending pieces
  · rw [if_neg near] at pending pieces
    rw [gap_of_other _ _ (opening ▸ other there.visible same)] at pieces
    exact .behindBlanks (by omega) pending pieces

end Leg

end Instrument

end LineProbe
