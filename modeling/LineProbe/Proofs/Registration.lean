import LineProbe.Proofs.Hoisting
import LineProbe.Proofs.Tallies

/-!
# Registration

A branch is reported as never run if it was registered and not entered.
-/

namespace LineProbe.Instrument

open Text Construct

variable {script : Script} {pass : Pass}

/-! ## Parts of a script -/

def Parted (script : Script) (index : Int) (lines after : List Text) : Prop :=
  statementHeads script.lines index (lines ++ after) =
    statementHeads script.lines index lines ++ statementHeads script.lines (index + lines.length) after

theorem exists_statementHeads_cons {index : Int} (nonneg : 0 ≤ index) (line : Text) (rest : List Text) :
    ∃ later, statementHeads script.lines index (line :: rest) = .ok (index, line) :: later := by
  cases blank : isBlankLine line with
  | true => exact ⟨_, statementHeads_blank blank⟩
  | false => exact ⟨_, statementHeads_visible nonneg blank⟩

namespace Parted

theorem of_nil_right (script : Script) (index : Int) (lines : List Text) : Parted script index lines [] := by
  rw [Parted, List.append_nil, statementHeads_nil, List.append_nil]

theorem blank (h : Parted script index (line :: lines) after) (blank : isBlankLine line) :
    Parted script (index + 1) lines after := by
  rw [Parted, List.cons_append, statementHeads_blank blank, statementHeads_blank blank, List.cons_append,
    List.cons.injEq] at h
  rw [Parted, h.2, List.length_cons]
  congr 2
  omega

theorem extent_le (h : Parted script index (line :: lines) after) (nonneg : 0 ≤ index)
    (visible : isBlankLine line = false) : (assemble index line (lines ++ after)).extent ≤ lines.length := by
  have extent := extent_assemble index line (lines ++ after)
  have last := last_assemble index line (lines ++ after)
  have taken := length_before_assemble_le index line (lines ++ after)
  by_contra crosses
  cases after with
  | nil =>
    rw [List.append_nil] at crosses extent taken
    omega
  | cons next after =>
    -- The first line behind would be where a statement begins, and one before it goes on behind it.
    obtain ⟨_, begins⟩ := @exists_statementHeads_cons script (index + (line :: lines).length) (by omega) next after
    rw [Parted, List.cons_append, statementHeads_visible nonneg visible, statementHeads_visible nonneg visible, begins,
      List.cons_append, List.cons.injEq] at h
    have mem : .ok (index + ((line :: lines).length : Int), next) ∈ statementHeads script.lines
        ((assemble index line (lines ++ next :: after)).last + 1)
        (behind (assemble index line (lines ++ next :: after)) (lines ++ next :: after)) := by
      rw [h.2]
      simp
    have bounds := statementHeads_bounds (by omega) mem
    simp only [List.length_cons] at bounds
    omega

theorem assemble_eq (h : Parted script index (line :: lines) after) (nonneg : 0 ≤ index)
    (visible : isBlankLine line = false) : assemble index line (lines ++ after) = assemble index line lines := by
  have same := assemble_take index line (lines ++ after) (h.extent_le nonneg visible)
  rw [List.take_left] at same
  exact same.symm

theorem behind_append (h : Parted script index (line :: lines) after) (nonneg : 0 ≤ index)
    (visible : isBlankLine line = false) :
    behind (assemble index line lines) (lines ++ after) = behind (assemble index line lines) lines ++ after := by
  have extent := h.extent_le nonneg visible
  rw [h.assemble_eq nonneg visible] at extent
  exact List.drop_append_of_le_length extent

theorem behind (h : Parted script index (line :: lines) after) (nonneg : 0 ≤ index) (visible : isBlankLine line = false) :
    Parted script ((assemble index line lines).last + 1) (behind (assemble index line lines) lines) after := by
  have same := h.assemble_eq nonneg visible
  have left := h.behind_append nonneg visible
  have extent := extent_assemble index line lines
  have last := last_assemble index line lines
  have taken := length_before_assemble_le index line lines
  rw [Parted, List.cons_append, statementHeads_visible nonneg visible, statementHeads_visible nonneg visible, same, left,
    List.cons_append, List.cons.injEq] at h
  rw [Parted, h.2, List.length_cons, List.length_drop]
  congr 2
  omega

theorem past (h : Parted script index (block ++ rest) after) (nonneg : 0 ≤ index)
    (inner : Parted script index block rest) : Parted script (index + block.length) rest after := by
  induction size : block.length using Nat.strongRecOn generalizing index block with
  | ind size_ ih =>
    subst size
    cases block with
    | nil => simpa using h
    | cons line block =>
      cases blank : isBlankLine line with
      | true =>
        have := ih block.length (by simp) (h.blank blank) (by omega) (inner.blank blank) rfl
        rwa [List.length_cons, Int.natCast_add, Int.natCast_one, Int.add_comm _ 1, ← Int.add_assoc]
      | false =>
        have same := inner.assemble_eq nonneg blank
        have left := inner.behind_append nonneg blank
        have extent := extent_assemble index line block
        have last := last_assemble index line block
        have taken := length_before_assemble_le index line block
        rw [List.cons_append] at h
        have h := h.behind nonneg blank
        rw [same, left] at h
        have := ih _ (by simp only [List.length_drop, List.length_cons]; omega) h (by omega) (inner.behind nonneg blank) rfl
        rw [List.length_drop] at this
        rw [List.length_cons]
        convert this using 1
        omega

theorem inner {block rest : List Text} (h : Parted script index (block ++ rest) after) (nonneg : 0 ≤ index)
    (inner : Parted script index block rest) : Parted script index block (rest ++ after) := by
  have past := h.past nonneg inner
  rw [Parted] at h inner past ⊢
  rw [← List.append_assoc, h, inner, past, List.append_assoc]
  congr 3
  simp only [List.length_append]
  omega

end Parted

structure Fenced (script : Script) (floor : Nat) (cursor : Int) (lines after : List Text) : Prop where
  here : LinesFrom script.lines cursor (lines ++ after)
  parted : Parted script cursor lines after
  inside : ∀ position line, .ok (position, line) ∈ statementHeads script.lines cursor lines →
    isBlankLine line = true ∨ floor ≤ script.indent.measure line
  outside : ∀ line ∈ after.head?, isBlankLine line = false ∧ script.indent.measure line < floor

theorem fenced_script (script : Script) : Fenced script 0 0 script.lines [] where
  here := by
    rw [List.append_nil]
    exact linesFrom_start _
  parted := .of_nil_right _ _ _
  inside _ _ _ := .inr (Nat.zero_le _)
  outside := by simp

namespace Fenced

theorem nonneg (h : Fenced script floor cursor lines after) : 0 ≤ cursor :=
  h.here.nonneg

theorem blank (h : Fenced script floor cursor (line :: lines) after) (blank : isBlankLine line) :
    Fenced script floor (cursor + 1) lines after where
  here := h.here.next
  parted := h.parted.blank blank
  inside position text mem := by
    apply h.inside position text
    rw [statementHeads_blank blank]
    exact List.mem_cons_of_mem _ mem
  outside := h.outside

theorem floor_le (h : Fenced script floor cursor (line :: lines) after) (visible : isBlankLine line = false) :
    floor ≤ script.indent.measure line := by
  obtain ⟨later, heads⟩ := @exists_statementHeads_cons script cursor h.nonneg line lines
  have mem : .ok (cursor, line) ∈ statementHeads script.lines cursor (line :: lines) := by
    rw [heads]
    exact List.mem_cons_self
  rcases h.inside cursor line mem with blank | deep
  · rw [visible] at blank
    cases blank
  · exact deep

theorem hoisted (h : Fenced script floor cursor (line :: lines) after) (flush : script.Flush)
    (hoisted : script.hoisted.contains cursor) : Fenced script floor (cursor + 1) lines after := by
  cases visible : isBlankLine line with
  | true => exact h.blank visible
  | false =>
    have margin := flush cursor hoisted line h.here.getElem?
    have deep := h.floor_le visible
    obtain rfl : floor = 0 := by omega
    have none_ : after = [] := by
      cases after with
      | nil => rfl
      | cons next after => exact absurd (h.outside next rfl).2 (Nat.not_lt_zero _)
    subst none_
    exact ⟨h.here.next, .of_nil_right _ _ _, fun _ _ _ => .inr (Nat.zero_le _), h.outside⟩

theorem behind (h : Fenced script floor cursor (line :: lines) after) (visible : isBlankLine line = false) :
    Fenced script floor ((assemble cursor line lines).last + 1) (behind (assemble cursor line lines) lines) after where
  here := by
    have whole : LinesFrom script.lines cursor (line :: (lines ++ after)) := h.here
    have here := whole.behind
    rw [h.parted.assemble_eq h.nonneg visible] at here
    rwa [← h.parted.behind_append h.nonneg visible]
  parted := h.parted.behind h.nonneg visible
  inside position text mem := by
    apply h.inside position text
    rw [statementHeads_visible h.nonneg visible]
    exact List.mem_cons_of_mem _ mem
  outside := h.outside

section Cut

variable {level count : Nat}

theorem parted_of_cut (cut : BlockCut script level cursor lines count) (bounded : count ≤ lines.length) :
    Parted script cursor (lines.take count) (lines.drop count) := by
  rw [Parted, List.take_append_drop, List.length_take_of_le bounded]
  exact cut.heads

theorem cut (h : Fenced script floor cursor lines after) (cut : BlockCut script level cursor lines count)
    (bounded : count ≤ lines.length) (deep : floor ≤ level) :
    Fenced script (level + 1) cursor (lines.take count) (lines.drop count ++ after) where
  here := by
    rw [← List.append_assoc, List.take_append_drop]
    exact h.here
  parted := by
    have parted := h.parted
    rw [← List.take_append_drop count lines] at parted
    exact parted.inner h.nonneg (parted_of_cut cut bounded)
  inside := cut.inside
  outside := by
    intro line first
    cases left : lines.drop count with
    | nil =>
      rw [left, List.nil_append] at first
      obtain ⟨visible, shallow⟩ := h.outside line first
      exact ⟨visible, by omega⟩
    | cons next rest =>
      rw [left] at first
      obtain ⟨visible, shallow⟩ := cut.outside line (by rw [left]; exact first)
      exact ⟨visible, by omega⟩

theorem past (h : Fenced script floor cursor lines after) (cut : BlockCut script level cursor lines count)
    (bounded : count ≤ lines.length) : Fenced script floor (cursor + count) (lines.drop count) after := by
  have nonneg := h.nonneg
  have parted := parted_of_cut cut bounded
  refine ⟨⟨by omega, ?_⟩, ?_, ?_, h.outside⟩
  · rw [show (cursor + count).toNat = cursor.toNat + count by omega, ← List.drop_drop, h.here.here,
      List.drop_append_of_le_length bounded]
  · have whole := h.parted
    rw [← List.take_append_drop count lines] at whole
    have past := whole.past nonneg parted
    rwa [List.length_take_of_le bounded] at past
  · intro position line mem
    apply h.inside position line
    rw [cut.heads]
    exact List.mem_append_right _ mem

end Cut

end Fenced

theorem siblingLines_append (heads : List (Except StatementError (Int × Text)))
    (shallow : ∀ head ∈ tail.head?, ∃ position line, head = .ok (position, line) ∧ isBlankLine line = false ∧
      config.measure line < level) :
    siblingLines config level (heads ++ tail) = siblingLines config level heads := by
  induction heads with
  | nil =>
    cases tail with
    | nil => rfl
    | cons head tail =>
      obtain ⟨position, line, rfl, visible, less⟩ := shallow head rfl
      rw [List.nil_append, siblingLines, if_neg, if_neg]
      · rfl
      · simp only [Bool.and_eq_true, decide_eq_true_eq]
        omega
      · simp only [visible, Bool.false_or, decide_eq_true_eq]
        omega
  | cons head heads ih =>
    cases head with
    | error cause => rfl
    | ok head =>
      rw [List.cons_append, siblingLines, siblingLines, ih]

theorem Fenced.siblings (h : Fenced script floor cursor lines after) (deep : floor ≤ level) :
    siblingLines script.indent level (statementHeads script.lines cursor lines) =
      siblingLines script.indent level (statementHeads script.lines cursor (script.lines.drop cursor.toNat)) := by
  have nonneg := h.nonneg
  rw [h.here.here, h.parted, siblingLines_append]
  intro head first
  cases after with
  | nil =>
    rw [statementHeads_nil] at first
    cases first
  | cons line after =>
    obtain ⟨later, heads⟩ := @exists_statementHeads_cons script (cursor + lines.length) (by omega) line after
    obtain ⟨visible, shallow⟩ := h.outside line rfl
    rw [heads] at first
    cases first
    exact ⟨_, _, rfl, visible, by omega⟩

/-! ## Runs -/

structure Emission where
  visit : Visit
  code : Text

def Emission.headers (script : Script) (emission : Emission) : List (Nat × Construct) :=
  match emission.visit.block with
  | none => Instrument.headers (script.indent.measure emission.visit.source.opening) emission.code
  | some _ => []

def Emission.headerTallies (script : Script) (emission : Emission) : Nat × Construct → List Tally :=
  Instrument.headerTallies script emission.visit.source.first emission.visit.source.last
    (script.lines.drop (emission.visit.source.last + 1).toNat)

def Emission.tallies (script : Script) (emission : Emission) : List Tally :=
  (emission.headers script).flatMap (emission.headerTallies script)

structure Emits (script : Script) (visits : List Visit) (emissions : List Emission) : Prop where
  visits : emissions.map Emission.visit = visits
  codes : ∀ emission ∈ emissions, ∃ site, emission.code = emission.visit.source.emitted script.callLimit site

namespace Emits

theorem nil : Emits script [] [] :=
  ⟨rfl, by simp⟩

theorem cons {visit : Visit} {visits : List Visit} (site : Nat) (h : Emits script visits emissions) :
    Emits script (visit :: visits) (⟨visit, visit.source.emitted script.callLimit site⟩ :: emissions) :=
  ⟨congrArg (visit :: ·) h.visits, List.forall_mem_cons.2 ⟨⟨site, rfl⟩, h.codes⟩⟩

theorem append {visits visits' : List Visit} (h : Emits script visits emissions) (h' : Emits script visits' emissions') :
    Emits script (visits ++ visits') (emissions ++ emissions') :=
  ⟨by rw [List.map_append, h.visits, h'.visits], List.forall_mem_append.2 ⟨h.codes, h'.codes⟩⟩

end Emits

theorem branchKeys_congr
    (same : siblingLines script.indent level (statementHeads script.lines (last + 1) after) =
      siblingLines script.indent level (statementHeads script.lines (last + 1) after')) (kind : Construct) :
    branchKeys script first last after level kind = branchKeys script first last after' level kind := by
  cases kind with
  | blockHeader keyword => rw [branchKeys, branchKeys, same]
  | _ => rfl

theorem Fenced.statementTallies (h : Fenced script floor cursor (line :: rest) after)
    (visible : isBlankLine line = false) (code : Text) :
    statementTallies script (assemble cursor line rest) (Instrument.behind (assemble cursor line rest) rest) code =
      statementTallies script (assemble cursor line rest)
        (script.lines.drop ((assemble cursor line rest).last + 1).toNat) code := by
  apply List.flatMap_congr
  rintro ⟨level, kind⟩ mem
  have deep := h.floor_le visible
  have deeper := level_le_of_mem_headers mem
  rw [opening_assemble] at deeper
  rw [headerTallies, headerTallies, branchKeys_congr ((h.behind visible).siblings (deep.trans deeper))]

theorem tallies_blankPieces (cursor : Int) (floor level : Nat) (after : List Text) :
    tallies (blankPieces script cursor floor level after) = [] := by
  apply tallies_eq_nil
  intro piece mem
  obtain ⟨level, -, rfl⟩ := List.mem_map.1 mem
  rfl

theorem tallies_mockedPrologue (st : Statement) (mock : MockedDef) : tallies (mockedPrologue st mock) = [] := by
  rw [mockedPrologue, tallies_append, tallies_interior, List.append_nil, tallies_parameters]

theorem tallies_mockedPieces (guarded : Guards st level pass guards pass') (source : LogicalStatement)
    (block : List Text) (mock : MockedDef) (shadow : Temp) (body : List Piece) :
    tallies (mockedPieces script.indent source st block mock shadow guards body) = tallies body := by
  have written : tallies (writtenBody script.indent st block) = [] := by
    apply tallies_eq_nil
    intro piece mem
    unfold writtenBody at mem
    split at mem
    · obtain ⟨_, -, rfl⟩ := List.mem_map.1 mem
      rfl
    · cases List.mem_singleton.1 mem
      rfl
  have header (text : Text) (pieces : List Piece) :
      tallies (.header text st.first st.last :: pieces) = tallies pieces := rfl
  rw [mockedPieces]
  simp only [tallies_append, header, guarded.tallies, written, List.cons_append]
  exact List.append_nil _

theorem MocksDef.not_docstring {mock : MockedDef}
    (mocks : MocksDef (statementOf script (assemble cursor line rest) line after) mock)
    (visible : isBlankLine line = false) : isDocstring line = false := by
  have construct := mocks.construct
  rw [body_statementOf script cursor rest after visible] at construct
  by_contra documents
  have opens := (opensString_of_isDocstring (by simpa using documents)).body cursor rest visible
  rcases opens.construct construct with ⟨-, same⟩ | ⟨-, same⟩ <;> cases same

theorem Runs.tallies (run : Runs script floor level pending cursor lines pass pieces pass') (flush : script.Flush)
    (fenced : Fenced script base cursor lines after) :
    ∃ emissions, Emits script (visits script cursor lines) emissions ∧
      Instrument.tallies pieces = Instrument.tallies pending ++ emissions.flatMap (Emission.tallies script) := by
  induction run generalizing base after with
  | done => exact ⟨[], by rw [visits]; exact .nil, (List.append_nil _).symm⟩
  | hoisted hoisted _ ih =>
    obtain ⟨emissions, emits, later⟩ := ih (fenced.hoisted flush hoisted)
    rw [visits_skipped (.inl hoisted), tallies_append, later]
    exact ⟨emissions, emits, rfl⟩
  | blank _ blank _ ih =>
    obtain ⟨emissions, emits, later⟩ := ih (fenced.blank blank)
    rw [visits_skipped (.inr blank), tallies_append, tallies_append, tallies_blankPieces, later, List.append_nil]
    exact ⟨emissions, emits, rfl⟩
  | @statement _ _ pending _ cursor line rest source step _ _ _ kept visible found unmocked stepped _ ih =>
    obtain rfl := assemble_eq_of_found fenced.nonneg found
    obtain ⟨emissions, emits, later⟩ := ih (fenced.behind visible)
    obtain ⟨site, own⟩ := stepped.tallies visible pending
    rw [visits_statement kept visible unmocked, tallies_append, later, ← List.append_assoc, own,
      fenced.statementTallies visible, List.append_assoc]
    exact ⟨_, emits.cons site, rfl⟩
  | mocked kept visible found same mocks stops cut guarded filled _ _ inner later =>
    obtain rfl := assemble_eq_of_found fenced.nonneg found
    subst same cut
    have behind := fenced.behind visible
    have split := blockEnd?_cut behind.nonneg stops
    have bounded := lengthBefore_le behind.nonneg stops
    obtain ⟨inside, emitsInside, inner⟩ := inner (behind.cut split bounded (fenced.floor_le visible))
    obtain ⟨outside, emitsOutside, later⟩ := later (behind.past split bounded)
    rw [visits_mocked kept visible rfl rfl mocks stops, tallies_append,
      tallies_placePrologue _ (by simp [mocks.not_docstring visible]), tallies_mockedPieces guarded, inner, later,
      tallies_mockedPrologue]
    refine ⟨_, (emitsInside.append emitsOutside).cons 0, ?_⟩
    simp [Emission.tallies, Emission.headers, Instrument.tallies]
  | mockedEmpty kept visible found same mocks stops cut guarded empty _ later =>
    obtain rfl := assemble_eq_of_found fenced.nonneg found
    subst same cut
    have behind := fenced.behind visible
    have split := blockEnd?_cut behind.nonneg stops
    have bounded := lengthBefore_le behind.nonneg stops
    obtain ⟨outside, emitsOutside, later⟩ := later (behind.past split bounded)
    rw [visits_mocked kept visible rfl rfl mocks stops, visits_of_blank _ (blank_of_not_hasBody behind.nonneg stops empty),
      tallies_append, tallies_placePrologue _ (by simp [mocks.not_docstring visible]), tallies_mockedPieces guarded,
      tallies_orPass, tallies_mockedPrologue, later]
    refine ⟨_, emitsOutside.cons 0, ?_⟩
    simp [Emission.tallies, Emission.headers, Instrument.tallies]

/-! ## Order -/

theorem Leg.ordered (leg : Leg script) :
    leg.visits.Pairwise (fun visit next => visit.source.last < next.source.first) ∧
      ∀ visit ∈ leg.visits, visit.source.first ≤ visit.source.last := by
  induction size : leg.lines.length using Nat.strongRecOn generalizing leg with
  | ind size_ ih =>
    subst size
    cases lines : leg.lines with
    | nil =>
      rw [visits_nil lines]
      exact ⟨.nil, by simp⟩
    | cons line rest =>
      rw [lines, List.length_cons] at ih
      have first := first_assemble leg.cursor line rest
      have last := last_assemble leg.cursor line rest
      have extent := extent_assemble leg.cursor line rest
      have own : (assemble leg.cursor line rest).first ≤ (assemble leg.cursor line rest).last := by omega
      cases leg.begins lines with
      | skips next _ nextLines _ _ _ _ visits _ =>
        rw [visits]
        exact ih _ (by rw [nextLines]; omega) next rfl
      | states next _ found _ nextLines cursor _ _ _ visits _ =>
        subst found
        obtain ⟨sorted, spans⟩ := ih _ (by rw [nextLines, List.length_drop]; omega) next rfl
        rw [visits, List.pairwise_cons]
        refine ⟨⟨fun visit mem => ?_, sorted⟩, List.forall_mem_cons.2 ⟨own, spans⟩⟩
        change (assemble leg.cursor line rest).last < visit.source.first
        have bounds := next.bounds mem
        omega
      | @mocks next _ _ _ block _ _ _ _ _ _ found _ _ cut cursor _ _ _ copied _ visits _ =>
        subst found
        have parts := congrArg List.length cut
        rw [List.length_append, List.length_drop] at parts
        have inner : (Instrument.visits script ((assemble leg.cursor line rest).last + 1) block).Pairwise
              (fun visit next => visit.source.last < next.source.first) ∧
            ∀ visit ∈ Instrument.visits script ((assemble leg.cursor line rest).last + 1) block,
              visit.source.first ≤ visit.source.last ∧ (assemble leg.cursor line rest).last < visit.source.first ∧
                visit.source.last < next.cursor := by
          rcases copied with ⟨inner, innerLines, innerCursor, -⟩ | blank
          · rw [← innerCursor, ← innerLines]
            obtain ⟨sorted, spans⟩ := ih _ (by rw [innerLines]; omega) inner rfl
            refine ⟨sorted, fun visit mem => ⟨spans visit mem, ?_⟩⟩
            have bounds := inner.bounds mem
            rw [innerLines] at bounds
            omega
          · rw [visits_of_blank _ blank]
            exact ⟨.nil, by simp⟩
        obtain ⟨sorted, spans⟩ := ih _ (by omega) next rfl
        rw [visits, List.pairwise_cons, List.pairwise_append]
        refine ⟨⟨fun visit mem => ?_, inner.1, sorted, fun visit mem later mem' => ?_⟩,
          List.forall_mem_cons.2 ⟨own, List.forall_mem_append.2 ⟨fun visit mem => (inner.2 visit mem).1, spans⟩⟩⟩
        · change (assemble leg.cursor line rest).last < visit.source.first
          rcases List.mem_append.1 mem with mem | mem
          · exact (inner.2 visit mem).2.1
          · have bounds := next.bounds mem
            omega
        · have bounds := next.bounds mem'
          have inside := inner.2 visit mem
          omega

/-! ## Branches -/

/-- The statement on line `key` has a header whose block is counted. -/
def Counted (script : Script) (emissions : List Emission) (key : Int) : Prop :=
  ∃ emission ∈ emissions, emission.visit.source.first = key ∧
    ∃ header ∈ emission.headers script, counts header.2 = true

/-- The branch on line `key` is registered: by the first header on the line that is counted, or by an `if` that it
continues. -/
inductive Registered (script : Script) (emissions : List Emission) (key : Int) : Prop where
  | itself {emission : Emission} {level : Nat} {kind : Construct} (mem : emission ∈ emissions)
    (here : emission.visit.source.first = key)
    (found : (emission.headers script).find? (fun header => counts header.2) = some (level, kind))
    (own : registers kind = true)
  | sibling {emission : Emission} {level : Nat} (mem : emission ∈ emissions)
    (choice : (level, .blockHeader "if") ∈ emission.headers script)
    (continues : Continues script.indent level (statementHeads script.lines (emission.visit.source.last + 1)
      (script.lines.drop (emission.visit.source.last + 1).toNat)) key)

theorem Continues.exists_mem (h : Continues config level heads key) : ∃ line, .ok (key, line) ∈ heads := by
  induction h with
  | here => exact ⟨_, List.mem_cons_self⟩
  | later _ _ ih =>
    obtain ⟨line, mem⟩ := ih
    exact ⟨line, List.mem_cons_of_mem _ mem⟩

theorem mem_tallies_enter : .enter key ∈ tallies pieces ↔ ∃ level, .injected level .enter key ∈ pieces := by
  simp [mem_tallies, Tally.IsFrom]

theorem mem_tallies_mark :
    .mark key ∈ tallies pieces ↔ ∃ level origin, .injected level (.mark key) origin ∈ pieces := by
  simp [mem_tallies, Tally.IsFrom]

theorem enter_mem_iff : .enter key ∈ emissions.flatMap (Emission.tallies script) ↔ Counted script emissions key := by
  simp only [List.mem_flatMap, Emission.tallies, Emission.headerTallies, enter_mem_headerTallies, Counted]
  constructor
  · rintro ⟨emission, mem, header, among, counted, rfl⟩
    exact ⟨emission, mem, rfl, header, among, counted⟩
  · rintro ⟨emission, mem, rfl, header, among, counted⟩
    exact ⟨emission, mem, header, among, counted, rfl⟩

theorem eq_of_append_cons {α : Type} {x : α} {front front' back back' : List α} (none_ : x ∉ front) (none' : x ∉ front')
    (same : front ++ x :: back = front' ++ x :: back') : front = front' := by
  rcases List.append_eq_append_iff.1 same with ⟨between, rfl, split⟩ | ⟨between, rfl, split⟩
  all_goals
    cases between with
    | nil => rw [List.append_nil]
    | cons y between =>
      cases split
      simp at none_ none'

theorem Emission.first_entered {emission : Emission}
    (found : (emission.headers script).find? (fun header => counts header.2) = some (level, kind)) :
    ∃ marks back, emission.tallies script = marks ++ .enter emission.visit.source.first :: back ∧
      .enter emission.visit.source.first ∉ marks ∧ (.mark emission.visit.source.first ∈ marks ↔ registers kind) := by
  obtain ⟨counted, before, after, split, uncounted⟩ := List.find?_eq_some_iff_append.1 found
  let keys := branchKeys script emission.visit.source.first emission.visit.source.last
    (script.lines.drop (emission.visit.source.last + 1).toNat) level kind
  have own : emission.headerTallies script (level, kind) = keys.map .mark ++ [.enter emission.visit.source.first] := by
    rw [headerTallies, Instrument.headerTallies, if_pos counted]
  have quiet (tally : Tally) (mem : tally ∈ before.flatMap (emission.headerTallies script))
      (here : tally = .enter emission.visit.source.first ∨ tally = .mark emission.visit.source.first) : False := by
    obtain ⟨⟨inner, other⟩, among, mem⟩ := List.mem_flatMap.1 mem
    have uncounted : counts other ≠ true := by simpa using uncounted _ among
    rcases here with rfl | rfl
    · exact uncounted (enter_mem_headerTallies.1 mem).1
    · rcases mark_mem_headerTallies.1 mem with own | ⟨rfl, -⟩
      · exact uncounted (counts_of_registers own.1)
      · exact uncounted (by decide)
  refine ⟨before.flatMap (emission.headerTallies script) ++ keys.map .mark,
    after.flatMap (emission.headerTallies script), ?_, ?_, ?_⟩
  · rw [tallies, split, List.flatMap_append, List.flatMap_cons, own]
    simp only [List.append_assoc, List.cons_append, List.nil_append]
  · rw [List.mem_append, not_or]
    exact ⟨fun mem => quiet _ mem (.inl rfl), by simp⟩
  · have marked : .mark emission.visit.source.first ∈ keys.map Tally.mark ↔ registers kind := by
      have mem : .mark emission.visit.source.first ∈ keys.map Tally.mark ↔
          .mark emission.visit.source.first ∈ emission.headerTallies script (level, kind) := by
        rw [own, List.mem_append]
        simp
      rw [mem, headerTallies, mark_mem_headerTallies]
      constructor
      · rintro (own | ⟨rfl, -⟩)
        · exact own.1
        · decide
      · exact fun own => .inl ⟨own, rfl⟩
    rw [List.mem_append, marked, or_iff_right fun mem => quiet _ mem (.inr rfl)]

structure Ordered (emissions : List Emission) : Prop where
  sorted : emissions.Pairwise fun emission next => emission.visit.source.last < next.visit.source.first
  spans : ∀ emission ∈ emissions,
    0 ≤ emission.visit.source.first ∧ emission.visit.source.first ≤ emission.visit.source.last

namespace Ordered

theorem place (h : Ordered (before ++ emission :: after)) (mem : other ∈ before ++ emission :: after) :
    other ∈ before ∨ other = emission ∨ emission.visit.source.last < other.visit.source.first := by
  obtain ⟨-, follows, -⟩ := List.pairwise_append.1 h.sorted
  rcases List.mem_append.1 mem with early | mem
  · exact .inl early
  · rcases List.mem_cons.1 mem with same | late
    · exact .inr (.inl same)
    · exact .inr (.inr ((List.pairwise_cons.1 follows).1 other late))

theorem early (h : Ordered (before ++ emission :: after)) (mem : other ∈ before) :
    other.visit.source.first < emission.visit.source.first := by
  have order := (List.pairwise_append.1 h.sorted).2.2 other mem emission List.mem_cons_self
  have span := h.spans other (List.mem_append_left _ mem)
  omega

theorem front_eq (h : Ordered (before ++ emission :: after)) {marks later : List Tally}
    (whole : (before ++ emission :: after).flatMap (Emission.tallies script) = front ++ .enter emission.visit.source.first :: back)
    (none_ : .enter emission.visit.source.first ∉ front)
    (own : emission.tallies script = marks ++ .enter emission.visit.source.first :: later)
    (unentered : .enter emission.visit.source.first ∉ marks) :
    front = before.flatMap (Emission.tallies script) ++ marks := by
  have first : .enter emission.visit.source.first ∉ before.flatMap (Emission.tallies script) := by
    intro mem
    obtain ⟨other, mem, same, -⟩ := enter_mem_iff.1 mem
    exact absurd same (Int.ne_of_lt (h.early mem))
  apply eq_of_append_cons none_ (by rw [List.mem_append, not_or]; exact ⟨first, unentered⟩)
  rw [← whole, List.flatMap_append, List.flatMap_cons, own]
  simp only [List.append_assoc, List.cons_append]
  rfl

end Ordered

theorem mark_mem_front_iff (ordered : Ordered emissions)
    (whole : emissions.flatMap (Emission.tallies script) = front ++ .enter key :: back) (none_ : .enter key ∉ front) :
    .mark key ∈ front ↔ Registered script emissions key := by
  have entered : .enter key ∈ emissions.flatMap (Emission.tallies script) := by
    rw [whole]
    simp
  obtain ⟨emission, mem, rfl, header, among, counted⟩ := enter_mem_iff.1 entered
  obtain ⟨⟨level, kind⟩, found⟩ : ∃ first, (emission.headers script).find? (fun header => counts header.2) = some first :=
    Option.isSome_iff_exists.1 (List.find?_isSome.2 ⟨header, among, counted⟩)
  obtain ⟨marks, later, own, unentered, marked⟩ := emission.first_entered found
  obtain ⟨before, after, rfl⟩ := List.append_of_mem mem
  have span := ordered.spans emission mem
  rw [ordered.front_eq whole none_ own unentered, List.mem_append, marked]
  constructor
  · rintro (earlier | own)
    · obtain ⟨other, among, tallied⟩ := List.mem_flatMap.1 earlier
      obtain ⟨⟨inner, construct⟩, header, tallied⟩ := List.mem_flatMap.1 tallied
      rcases mark_mem_headerTallies.1 tallied with ⟨-, same⟩ | ⟨rfl, continues⟩
      · exact absurd same.symm (Int.ne_of_lt (ordered.early among))
      · exact .sibling (List.mem_append_left _ among) header continues
    · exact .itself mem rfl found own
  · rintro (@⟨other, inner, construct, among, here, found', own⟩ | @⟨other, inner, among, choice, continues⟩)
    · rcases ordered.place among with early | rfl | late
      · exact absurd here (Int.ne_of_lt (ordered.early early))
      · cases found.symm.trans found'
        exact .inr own
      · omega
    · have span' := ordered.spans other among
      obtain ⟨line, listed⟩ := continues.exists_mem
      have bounds := statementHeads_bounds (by omega) listed
      rcases ordered.place among with early | rfl | late
      · exact .inl (List.mem_flatMap.2 ⟨other, early,
          List.mem_flatMap.2 ⟨_, choice, mark_mem_headerTallies.2 (.inr ⟨rfl, continues⟩)⟩⟩)
      · omega
      · omega

/-- Which branches are counted, and which of them are registered before they are first entered. -/
theorem branch_registered_iff {pieces : List Piece} {pass : Pass} (flush : script.Flush)
    (done : wholeScript script = .ok (pieces, pass)) :
    ∃ emissions, Emits script (visits script 0 script.lines) emissions ∧ ∀ key,
      ((∃ level, .injected level .enter key ∈ pieces) ↔ Counted script emissions key) ∧
      ∀ front level back, pieces = front ++ .injected level .enter key :: back →
        (∀ level, .injected level .enter key ∉ front) →
        ((∃ level origin, .injected level (.mark key) origin ∈ front) ↔ Registered script emissions key) := by
  obtain ⟨emissions, emits, whole⟩ := (range_ok done).tallies flush (fenced_script script)
  obtain ⟨sorted, spans⟩ := (Leg.ofScript done).ordered
  have visits : (Leg.ofScript done).visits = emissions.map Emission.visit := emits.visits.symm
  rw [visits] at sorted spans
  refine ⟨emissions, emits, fun key => ⟨?_, fun front level back split none_ => ?_⟩⟩
  · rw [← mem_tallies_enter, whole]
    exact enter_mem_iff
  · rw [← mem_tallies_mark]
    rw [split, tallies_append] at whole
    refine mark_mem_front_iff ⟨List.pairwise_map.1 sorted, fun emission mem => ?_⟩ whole.symm ?_
    · have mem := List.mem_map_of_mem (f := Emission.visit) mem
      exact ⟨((Leg.ofScript done).bounds (visits ▸ mem)).1, spans _ mem⟩
    · rw [mem_tallies_enter]
      exact fun ⟨level, mem⟩ => none_ level mem

def choiceScript : Script :=
  .ofSource "if a: b\nelse: if c: d".toList .standard 100

theorem exists_enter_of_tallies (h : tallies pieces = front ++ .enter key :: back) :
    ∃ before level after, pieces = before ++ .injected level .enter key :: after ∧ tallies before = front := by
  obtain ⟨before, rest, rfl, earlier, later⟩ := List.filterMap_eq_append_iff.1 h
  obtain ⟨skipped, piece, after, rfl, none_, found, -⟩ := List.filterMap_eq_cons_iff.1 later
  obtain ⟨level, rfl⟩ := tally?_eq_some_iff.1 found
  refine ⟨before ++ skipped, level, after, (List.append_assoc ..).symm, ?_⟩
  rw [tallies_append, tallies_eq_nil none_, List.append_nil]
  exact earlier

theorem branch_registered_iff_sample :
    ∃ emissions, Emits choiceScript (visits choiceScript 0 choiceScript.lines) emissions ∧
      Counted choiceScript emissions 1 ∧ Registered choiceScript emissions 1 ∧ ¬ Counted choiceScript emissions 2 := by
  have flush : choiceScript.Flush := Script.flush_ofSource _ _ _
  have runs : (wholeScript choiceScript).toOption.map (fun result => tallies result.1) =
      some ([.mark 0, .mark 1, .enter 0] ++ .enter 1 :: [.mark 1, .enter 1]) := by decide +kernel
  obtain ⟨⟨pieces, pass⟩, done⟩ : ∃ result, wholeScript choiceScript = .ok result := by
    cases ran : wholeScript choiceScript with
    | error cause =>
      rw [ran] at runs
      cases runs
    | ok result => exact ⟨result, rfl⟩
  rw [done] at runs
  have tallied : tallies pieces = [.mark 0, .mark 1, .enter 0] ++ .enter 1 :: [.mark 1, .enter 1] := Option.some.inj runs
  obtain ⟨emissions, emits, each⟩ := branch_registered_iff flush done
  obtain ⟨before, level, after, split, front⟩ := exists_enter_of_tallies tallied
  refine ⟨emissions, emits, ?_, ?_, ?_⟩
  · rw [← (each 1).1, split]
    exact ⟨level, by simp⟩
  · rw [← (each 1).2 before level after split, ← mem_tallies_mark, front]
    · decide
    · intro level mem
      have mem := mem_tallies_enter.2 ⟨level, mem⟩
      rw [front] at mem
      exact absurd mem (by decide)
  · rw [← (each 2).1, ← mem_tallies_enter, tallied]
    decide

/-- The `else` of a loop is counted and not registered, and neither is a loop whose header has no space behind `for`. -/
theorem branches_unregistered :
    instrumentedTexts "while a:\n    b\nelse:\n    c" =
        some (["_clem_mark(\"0\")", "print(\"0:\")", "while a:", "    _clem_enter(\"0\")", "    b", "    print(\"1:\")",
          "else:", "    _clem_enter(\"2\")", "    c", "    print(\"3:\")"].map String.toList) ∧
      instrumentedTexts "for(a)in b:\n    c" =
        some (["print(\"0:\")", "for(a)in b:", "    _clem_enter(\"0\")", "    c",
          "    print(\"1:\")"].map String.toList) := by
  constructor <;> decide +kernel

end LineProbe.Instrument
