import LineProbe.Proofs.Pieces

/-!
# Where the pieces of a statement stand

A list of statements is well indented if each stands at a level, none is deeper than the one before it allows, and it
is filled if each header is followed by a statement one level deeper.
-/

namespace LineProbe

open Text

variable {st : Statement}

/-! ## Lists of statements -/

/-- Where a statement stands: the white space before it, and whether it opens a block. -/
structure Placed where
  indentation : Text
  opens : Bool
deriving DecidableEq, Repr

def Placed.level (config : IndentConfig) (placed : Placed) : Nat :=
  config.measure placed.indentation

/-- Every statement stands at a level, the first one not deeper than `ceiling`, the one behind a header at most one
level deeper than it, and the one behind any other statement not deeper than it. -/
def WellIndented (config : IndentConfig) : (ceiling : Nat) → List Placed → Prop
  | _, [] => True
  | ceiling, first :: rest =>
    first.indentation = config.render (first.level config) ∧ first.level config ≤ ceiling ∧
      WellIndented config (first.level config + first.opens.toNat) rest

/-- Every header is followed by a statement one level deeper. -/
def Filled (config : IndentConfig) : List Placed → Prop
  | [] => True
  | first :: rest =>
    (first.opens = true → rest.head?.any (·.level config == first.level config + 1) = true) ∧ Filled config rest

instance decidableWellIndented (config : IndentConfig) :
    (ceiling : Nat) → (placed : List Placed) → Decidable (WellIndented config ceiling placed)
  | _, [] => .isTrue trivial
  | _, first :: rest =>
    have := decidableWellIndented config (first.level config + first.opens.toNat) rest
    inferInstanceAs (Decidable (_ ∧ _ ∧ _))

instance decidableFilled (config : IndentConfig) : (placed : List Placed) → Decidable (Filled config placed)
  | [] => .isTrue trivial
  | _ :: rest =>
    have := decidableFilled config rest
    inferInstanceAs (Decidable ((_ → _) ∧ _))

structure Spot where
  level : Nat
  opens : Bool

def Spot.Fits (spot : Spot) (level : Nat) : Prop :=
  if spot.opens then level = spot.level + 1 else level ≤ spot.level

inductive Laid (config : IndentConfig) : Spot → List Placed → Spot → Prop where
  | nil {spot : Spot} : Laid config spot [] spot
  | cons {spot last : Spot} {level : Nat} {opens : Bool} {rest : List Placed} (fits : spot.Fits level)
    (later : Laid config ⟨level, opens⟩ rest last) : Laid config spot (⟨config.render level, opens⟩ :: rest) last

namespace Laid

theorem append (h : Laid config spot first between) (h' : Laid config between rest last) :
    Laid config spot (first ++ rest) last := by
  induction h with
  | nil => exact h'
  | cons fits _ ih => exact .cons fits (ih h')

theorem wellIndented (h : Laid config spot rest last) : WellIndented config (spot.level + spot.opens.toNat) rest := by
  induction h with
  | nil => trivial
  | @cons spot last level opens rest fits later ih =>
    have same : Placed.level config ⟨config.render level, opens⟩ = level := config.measure_render level
    refine ⟨by rw [same], ?_, by rw [same]; exact ih⟩
    rw [same]
    unfold Spot.Fits at fits
    cases open_ : spot.opens <;> simp [open_] at fits ⊢ <;> omega

theorem filled (h : Laid config spot rest last) (closed : last.opens = false) :
    Filled config rest ∧ (spot.opens → rest.head?.any (·.level config == spot.level + 1)) := by
  induction h with
  | nil =>
    refine ⟨trivial, fun open_ => ?_⟩
    rw [closed] at open_
    cases open_
  | @cons spot last level opens rest fits later ih =>
    have same : Placed.level config ⟨config.render level, opens⟩ = level := config.measure_render level
    obtain ⟨others, next⟩ := ih closed
    refine ⟨⟨?_, others⟩, fun open_ => ?_⟩
    · rw [same]
      exact next
    · simp only [Spot.Fits, open_, if_true] at fits
      rw [List.head?_cons, Option.any_some, same, fits]
      exact beq_self_eq_true _

end Laid

/-! ## Pieces -/

def Piece.opensBlock : Piece → Bool
  | .header .. | .loopHead .. => true
  | .code .. | .binding .. | .injected .. => false

def Piece.placed (config : IndentConfig) (piece : Piece) : Placed :=
  ⟨leadingBlanks (piece.text config), piece.opensBlock⟩

def Piece.At (config : IndentConfig) (level : Nat) (piece : Piece) : Prop :=
  piece.placed config = ⟨config.render level, false⟩

theorem leadingBlanks_render_append (config : IndentConfig) (level : Nat) (h : Starts text) :
    leadingBlanks (config.render level ++ text) = config.render level := by
  obtain ⟨c, rest, rfl, notBlank⟩ := h
  exact leadingBlanks_append_cons rest (fun d mem => (blank_render config level d mem).1) notBlank

theorem Injection.Plain.at (h : what.Plain) : Piece.At config level (.injected level what origin) := by
  rw [Piece.At, Piece.placed, Piece.text, leadingBlanks_render_append config level (h.starts origin)]
  rfl

namespace Laid

variable {pieces : List Piece}

theorem of_at (each : ∀ piece ∈ pieces, piece.At config level) :
    Laid config ⟨level, false⟩ (pieces.map (Piece.placed config)) ⟨level, false⟩ := by
  induction pieces with
  | nil => exact .nil
  | cons piece rest ih =>
    rw [List.forall_mem_cons] at each
    rw [List.map_cons, each.1]
    exact .cons (Nat.le_refl level) (ih each.2)

theorem of_at_ne_nil (each : ∀ piece ∈ pieces, piece.At config level) (fits : spot.Fits level) (nonempty : pieces ≠ []) :
    Laid config spot (pieces.map (Piece.placed config)) ⟨level, false⟩ := by
  obtain ⟨piece, rest, rfl⟩ := List.exists_cons_of_ne_nil nonempty
  rw [List.forall_mem_cons] at each
  rw [List.map_cons, each.1]
  exact .cons fits (of_at each.2)

theorem of_header (each : ∀ piece ∈ pieces, piece.At config level) (fits : spot.Fits level)
    (opens : header.placed config = ⟨config.render level, true⟩) :
    Laid config spot ((pieces ++ [header]).map (Piece.placed config)) ⟨level, true⟩ := by
  rw [List.map_append, List.map_singleton, opens]
  by_cases empty : pieces = []
  · subst empty
    exact .cons fits .nil
  · exact (of_at_ne_nil each fits empty).append (.cons (Nat.le_refl level) .nil)

theorem before {property : Spot → Prop} (fits : spot.Fits level) (each : ∀ piece ∈ pieces, piece.At config level)
    (later : ∀ spot : Spot, spot.Fits level → ∃ last, Laid config spot next last ∧ property last) :
    ∃ last, Laid config spot (pieces.map (Piece.placed config) ++ next) last ∧ property last := by
  by_cases empty : pieces = []
  · subst empty
    exact later spot fits
  · obtain ⟨last, laid, known⟩ := later ⟨level, false⟩ (Nat.le_refl level)
    exact ⟨last, (of_at_ne_nil each fits empty).append laid, known⟩

end Laid

namespace Instrument

open Construct

variable {pass : Pass}

structure Indented (config : IndentConfig) (st : Statement) : Prop where
  indentation : st.indentation = config.render st.level
  starts : Starts st.body

theorem Indented.own (h : Indented config st) (starts : Starts body) : (st.own body).At config st.level := by
  rw [Piece.At, Piece.placed, Statement.own, Piece.text, h.indentation, leadingBlanks_render_append config _ starts]
  rfl

theorem Indented.bind (h : Indented config st) (temp : Temp) (value : Text) :
    (st.bind temp value).At config st.level := by
  have starts : Starts (temp.name ++ " = ".toList ++ value) := ((starts_tempName temp).append _).append _
  rw [Piece.At, Piece.placed, Statement.bind, Piece.text, h.indentation, leadingBlanks_render_append config _ starts]
  rfl

theorem Indented.heading (h : Indented config st) : st.heading.placed config = ⟨config.render st.level, true⟩ := by
  rw [Piece.placed, Statement.heading, Piece.text, h.indentation, leadingBlanks_render_append config _ h.starts]
  rfl

theorem Indented.loopHead (h : Indented config st) (starts : Starts head) (temp : Temp) (line : Int) :
    (Piece.loopHead st.indentation head temp line).placed config = ⟨config.render st.level, true⟩ := by
  rw [Piece.placed, Piece.text, h.indentation, leadingBlanks_render_append config _ ((starts.append _).append _)]
  rfl

theorem Guards.at (h : Guards st level pass guards pass') : ∀ piece ∈ guards, piece.At config level := by
  intro piece mem
  obtain ⟨site, limit, rfl⟩ := h.mem mem
  exact Injection.Plain.at trivial

theorem at_probe : Piece.At config level (.injected level (.probe none) origin) :=
  Injection.Plain.at (by rintro _ ⟨⟩)

theorem at_showing (h : LineProbe.Plain text) : Piece.At config level (.injected level (.probe (some text)) origin) :=
  Injection.Plain.at (by rintro _ ⟨⟩; exact h)

theorem at_interior (st : Statement) (level : Nat) : ∀ piece ∈ st.interior level, piece.At config level := by
  intro piece mem
  obtain ⟨origin, rfl⟩ := eq_of_mem_interior mem
  exact at_probe

theorem at_orPass (h : ∀ piece ∈ pieces, piece.At config level) :
    orPass st level pieces ≠ [] ∧ ∀ piece ∈ orPass st level pieces, piece.At config level := by
  unfold orPass
  split
  · exact ⟨by simp, List.forall_mem_singleton.2 (Injection.Plain.at trivial)⟩
  · next nonempty => exact ⟨by simpa using nonempty, h⟩

theorem Heads.laid (h : Heads script st construct pass parts pass') (indented : Indented config st)
    (named : ∀ name params, construct = .defHeader name params → ∀ param ∈ params, LineProbe.Plain param)
    (loop : ∀ head iterable, construct = .forHeader head iterable → Starts head) (fits : spot.Fits st.level) :
    Laid config spot ((parts.before ++ parts.header).map (Piece.placed config)) ⟨st.level, true⟩ ∧
      ∀ piece ∈ parts.prologue, piece.At config (st.level + 1) := by
  have marks (keys : List Int) : ∀ piece ∈ keys.map fun key => st.inject st.level (.mark key), piece.At config st.level := by
    intro piece mem
    obtain ⟨key, -, rfl⟩ := List.mem_map.1 mem
    exact Injection.Plain.at trivial
  have inside : ∀ piece ∈ st.interior (st.level + 1), piece.At config (st.level + 1) := at_interior st _
  cases h with
  | loop marked guarded =>
    constructor
    · refine .of_header ?_ fits (indented.loopHead (loop _ _ rfl) _ _)
      simp only [List.forall_mem_append, List.forall_mem_cons]
      exact ⟨marks _, indented.bind _ _, at_showing (plain_tempName _), by simp⟩
    · simp only [List.forall_mem_append, List.forall_mem_singleton]
      exact ⟨⟨Injection.Plain.at trivial, guarded.at⟩, inside⟩
  | definition marked guarded =>
    refine ⟨.of_header (marks _) fits indented.heading, ?_⟩
    simp only [List.forall_mem_append]
    refine ⟨⟨fun piece mem => ?_, guarded.at⟩, inside⟩
    obtain ⟨name, known, rfl⟩ := List.mem_map.1 mem
    exact Injection.Plain.at (named _ _ rfl name known)
  | block marked guarded =>
    constructor
    · refine .of_header (List.forall_mem_append.2 ⟨marks _, ?_⟩) fits indented.heading
      split
      · exact List.forall_mem_singleton.2 at_probe
      · simp
    · simp only [List.forall_mem_append]
      refine ⟨⟨?_, guarded.at⟩, inside⟩
      split
      · exact List.forall_mem_singleton.2 (Injection.Plain.at trivial)
      · simp

/-! ## Statements -/

theorem starts_forHeader (h : classify code = .ok (.forHeader head iterable)) (starts : Starts code) : Starts head := by
  cases classify_ok h with
  | forHeader found =>
    obtain ⟨index, -, -, -, -, -, same⟩ := forHeader?_iff.1 found
    cases same
    exact (starts.take (index + 1)).append _

theorem starts_inlineConstruct (h : classify code = .ok construct)
    (same : inlineConstruct code construct = .forHeader head iterable) (starts : Starts code) : Starts head := by
  rcases inlineConstruct_cases code construct with kept | block
  · exact starts_forHeader (kept.symm.trans same ▸ h) starts
  · cases block.symm.trans same

theorem starts_assigned (h : classify st.body = .ok kind)
    (assigns : kind = .assignment target valueStart ∨ kind = .annotated target valueStart) (starts : Starts st.body) :
    Starts (st.body.take valueStart ++ assignedValue st valueStart) := by
  obtain ⟨before, rfl⟩ : ∃ before, valueStart = before + 1 := by
    rcases assigns with rfl | rfl
    · cases classify_ok h with
      | assignment found =>
        obtain ⟨left, value, target, equals, -, same⟩ := assignment?_iff.1 found
        cases same
        obtain ⟨front, whole, nonempty, -, -⟩ := afterTarget?_spec target
        obtain ⟨trimmed, -⟩ := afterEquals?_iff.1 equals
        have le := length_trimLeft_le left
        have length := congrArg List.length whole
        rw [trimmed, List.length_cons] at le
        rw [List.length_append] at length
        have pos := List.length_pos_iff.2 nonempty
        exact ⟨indexOf st.body value - 1, by rw [indexOf]; omega⟩
    · cases classify_ok h with
      | annotated found =>
        obtain ⟨_, _, equals, -, -, -, -, same⟩ := annotated?_iff.1 found
        cases same
        exact ⟨equals, rfl⟩
  exact (starts.take before).append _

theorem nextLevel_le (h : hasBody config after level = false) : nextLevel config after level ≤ level := by
  unfold hasBody at h
  unfold nextLevel
  cases found : nextCode? after with
  | none => simp
  | some line =>
    rw [found] at h
    simpa using h

structure Flat (config : IndentConfig) (spot : Spot) (st : Statement) (step : Step) : Prop where
  laid : ∃ level, Laid config spot (step.pieces.map (Piece.placed config)) ⟨level, false⟩ ∧ st.level ≤ level ∧
    step.nextLevel ≤ level
  prologue : step.prologue = []
  behind : nextLevel config st.after st.level ≤ step.nextLevel
  shallow : endsWithChar st.body ':' = false → step.nextLevel ≤ st.level

theorem flat_of_at (empty : hasBody config st.after st.level = false) (fits : spot.Fits st.level)
    (each : ∀ piece ∈ pieces, piece.At config st.level) (nonempty : pieces ≠ [])
    (behind : next = st.level ∨ next = nextLevel config st.after st.level) :
    Flat config spot st ⟨pieces, next, []⟩ := by
  have le := nextLevel_le empty
  have same : nextLevel config st.after st.level ≤ next ∧ next ≤ st.level := by omega
  exact ⟨⟨st.level, .of_at_ne_nil each fits nonempty, Nat.le_refl _, same.2⟩, rfl, same.1, fun _ => same.2⟩

theorem hasBody_succ (h : hasBody config after level = false) : hasBody config after (level + 1) = false := by
  unfold hasBody at h ⊢
  cases found : nextCode? after with
  | none => rfl
  | some line =>
    rw [found] at h
    simp only [Option.any_some, decide_eq_false_iff_not] at h ⊢
    omega

theorem Indented.inlineHead (h : Indented config st) (colon : Nat) : Indented config (st.inlineHead colon) :=
  ⟨h.indentation, h.starts.take colon⟩

theorem indented_inlineBody (h : classify st.body = .ok (.inlineCompound colon)) :
    Indented config (st.inlineBody config colon) := by
  refine ⟨rfl, starts_trimLeft ?_⟩
  cases classify_ok h with
  | inlineCompound early last found =>
    obtain ⟨_, -, -, filled, same⟩ := inlineCompound?_iff.1 found
    cases same
    intro empty
    exact filled (trim_eq_nil_iff.2 (trimLeft_eq_nil_iff.1 empty))

theorem starts_plainBody (h : Starts st.body) : Starts (plainBody st) := by
  unfold plainBody
  split
  · exact h
  · split
    · exact h
    · exact ⟨'(', _, rfl, by decide⟩

theorem Dispatched.flat (h : Dispatched script st pass step pass') (indented : Indented script.indent st)
    (empty : hasBody script.indent st.after st.level = false) (fits : spot.Fits st.level) :
    Flat script.indent spot st step := by
  induction h generalizing spot with
  | augmented construct guarded =>
    obtain ⟨target, operator, named⟩ := plain_augmented construct
    refine flat_of_at empty fits ?_ (by simp) (.inl rfl)
    simp only [List.forall_mem_append, List.forall_mem_cons]
    refine ⟨⟨guarded.at, indented.bind _ _, at_showing ?_, Injection.Plain.at ⟨target, operator, named⟩, by simp⟩,
      at_interior _ _⟩
    simp only [plain_append]
    exact ⟨⟨⟨⟨target, by decide⟩, operator⟩, by decide⟩, plain_tempName _⟩
  | assigned construct assigns guarded =>
    refine flat_of_at empty fits ?_ (by simp) (.inl rfl)
    simp only [List.forall_mem_append, List.forall_mem_cons]
    exact ⟨⟨guarded.at, indented.own (starts_assigned construct assigns indented.starts),
      at_showing (plain_assigned construct assigns), by simp⟩, at_interior _ _⟩
  | printed construct guarded =>
    refine flat_of_at empty fits ?_ (by simp) (.inl rfl)
    simp only [List.forall_mem_append, List.forall_mem_singleton]
    exact ⟨⟨guarded.at, indented.own (((indented.starts.take _).append _).append _)⟩, at_interior _ _⟩
  | returned construct given guarded =>
    refine flat_of_at empty fits ?_ (by simp) (.inr rfl)
    simp only [List.forall_mem_append, List.forall_mem_cons]
    exact ⟨⟨guarded.at, at_interior _ _⟩, indented.bind _ _, at_showing (plain_tempName _), Injection.Plain.at trivial,
      by simp⟩
  | ended construct none_ guarded =>
    refine flat_of_at empty fits ?_ (by simp) (.inr rfl)
    simp only [List.forall_mem_append, List.forall_mem_cons]
    exact ⟨⟨guarded.at, at_interior _ _⟩, at_probe, Injection.Plain.at trivial, by simp⟩
  | opened construct opens heads body =>
    rw [body] at empty
    cases empty
  | openedEmpty construct opens heads _ =>
    obtain ⟨laid, prologue⟩ := heads.laid indented (fun name params same => plain_params (same ▸ construct))
      (fun head iterable same => starts_forHeader (same ▸ construct) indented.starts) fits
    obtain ⟨nonempty, filler⟩ := at_orPass prologue
    refine ⟨⟨_, ?_, Nat.le_succ _, Nat.le_refl _⟩, rfl, Nat.le_succ_of_le (nextLevel_le empty), fun other => ?_⟩
    · rw [List.map_append]
      exact laid.append (.of_at_ne_nil filler rfl nonempty)
    · rw [endsWithChar_of_opensBlock construct opens] at other
      cases other
  | @inline st pass between pass' colon kind parts inner construct header heads body ih =>
    have inHead := indented.inlineHead colon
    obtain ⟨laid, prologue⟩ := heads.laid inHead (fun name params same => plain_params_inlineConstruct header same)
      (fun head iterable same => starts_inlineConstruct header same inHead.starts) fits
    -- The body on the line of the header stands one level deeper, and nothing behind the line is in its block.
    have within (spot : Spot) (fits : spot.Fits (st.level + 1)) :=
      ih (indented_inlineBody construct) (hasBody_succ empty) fits
    have inside : ∃ last, Laid script.indent ⟨st.level, true⟩ (parts.prologue.map (Piece.placed script.indent) ++
        inner.pieces.map (Piece.placed script.indent)) last ∧ last.opens = false ∧ st.level < last.level := by
      refine Laid.before rfl prologue fun spot fits => ?_
      obtain ⟨level, laid, deeper, -⟩ := (within spot fits).laid
      exact ⟨⟨level, false⟩, laid, rfl, deeper⟩
    obtain ⟨⟨level, _⟩, inside, rfl, deeper⟩ := inside
    refine ⟨⟨level, ?_, Nat.le_of_lt deeper, Nat.le_of_lt deeper⟩, rfl, nextLevel_le empty, fun _ => Nat.le_refl _⟩
    rw [(within ⟨st.level, true⟩ rfl).prologue, List.append_nil, List.map_append, List.map_append, List.append_assoc]
    exact laid.append inside
  | ignored construct guarded =>
    refine flat_of_at empty fits ?_ (by simp) (.inr rfl)
    simp only [List.forall_mem_append, List.forall_mem_singleton]
    exact ⟨⟨guarded.at, at_interior _ _⟩, indented.own indented.starts⟩
  | plain construct simple guarded =>
    refine flat_of_at empty fits ?_ (by simp) (.inl rfl)
    simp only [List.forall_mem_append, List.forall_mem_cons]
    exact ⟨⟨guarded.at, indented.own (starts_plainBody indented.starts), at_probe, by simp⟩, at_interior _ _⟩

theorem Dispatched.opens (h : Dispatched script st pass step pass') (indented : Indented script.indent st)
    (construct : classify st.body = .ok kind) (opens : kind.opensBlock) (body : hasBody script.indent st.after st.level)
    (fits : spot.Fits st.level) :
    Laid script.indent spot (step.pieces.map (Piece.placed script.indent)) ⟨st.level, true⟩ ∧
      step.nextLevel = st.level + 1 ∧ ∀ piece ∈ step.prologue, piece.At script.indent (st.level + 1) := by
  have unique {other : Construct} (found : classify st.body = .ok other) : other = kind :=
    Except.ok.inj (found.symm.trans construct)
  cases h with
  | opened found _ heads _ =>
    obtain ⟨laid, prologue⟩ := heads.laid indented (fun name params same => plain_params (same ▸ found))
      (fun head iterable same => starts_forHeader (same ▸ found) indented.starts) fits
    exact ⟨laid, rfl, prologue⟩
  | openedEmpty _ _ _ empty =>
    rw [body] at empty
    cases empty
  | augmented found | printed found | returned found | ended found | inline found | ignored found =>
    cases unique found
    cases opens
  | assigned found assigns =>
    rw [← unique found] at opens
    rcases assigns with rfl | rfl <;> cases opens
  | plain found simple =>
    rw [← unique found] at opens
    rcases simple with rfl | rfl <;> cases opens

end Instrument

end LineProbe
