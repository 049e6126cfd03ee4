import LineProbe.Proofs.Parameters
import LineProbe.Proofs.Probe
import LineProbe.Proofs.Range
import LineProbe.Proofs.Recognition

/-!
# Plain pieces

What the recognisers give to the lines that are put in is plain: targets, operators and the names of parameters.
-/

namespace LineProbe

open Text

def Piece.text (config : IndentConfig) : Piece → Text
  | .code text _ _ | .header text _ _ => text
  | .binding indentation temp value _ _ => indentation ++ (temp.name ++ " = ".toList ++ value)
  | .loopHead indentation head temp _ => indentation ++ (head ++ temp.name ++ [':'])
  | .injected level what origin => config.render level ++ what.text origin

def Piece.Plain : Piece → Prop
  | .code .. | .header .. | .binding .. => True
  | .loopHead indentation .. => '\n' ∉ indentation
  | .injected _ what _ => what.Plain

def Wordy (text : Text) : Prop :=
  ∀ c ∈ text, isNamePart c = true ∨ c = '.'

structure Symbols (operator : Text) : Prop where
  filled : operator ≠ []
  chars : ∀ c ∈ operator, c ∈ "-+*/%@&|^<>".toList

theorem Wordy.plain (h : Wordy text) : Plain text := by
  intro c mem
  rcases h c mem with part | rfl
  · exact ⟨isQuiet_of_isNamePart part, ne_newline_of_isNamePart part⟩
  · decide

theorem Symbols.plain (h : Symbols operator) : Plain operator := by
  have all : ∀ c ∈ "-+*/%@&|^<>".toList, isQuiet c ∧ c ≠ '\n' := by decide +kernel
  exact fun c mem => all c (h.chars c mem)

variable {params : List Text} {st : Statement}

namespace Instrument

open Construct

variable {pass : Pass}

/-! ## What is recognised -/

theorem wordy_targetBefore (h : afterTarget? code = some rest) : Wordy (targetBefore code rest) :=
  fun _ mem => (mem_targetBefore h mem).imp_left fun word => by simp [isNamePart, word]

theorem wordy_assigned (h : classify code = .ok construct)
    (assigns : construct = .assignment target valueStart ∨ construct = .annotated target valueStart) :
    Wordy target := by
  rcases assigns with rfl | rfl
  · cases classify_ok h with
    | assignment found =>
      obtain ⟨rest, value, behind, -, -, same⟩ := assignment?_iff.1 found
      cases same
      exact wordy_targetBefore behind
  · cases classify_ok h with
    | annotated found =>
      obtain ⟨rest, behind, equals, colon, -, -, -, same⟩ := annotated?_iff.1 found
      cases same
      exact wordy_targetBefore (afterAnnotationColon?_iff.1 colon).1

theorem wordy_augmented (h : classify code = .ok (.augmented target operator valueStart)) :
    Wordy target ∧ Symbols operator ∧ nameAtStart target ≠ [] := by
  cases classify_ok h with
  | augmented found =>
    obtain ⟨rest, _, behind, value, target, known, -, -, same⟩ := augmented?_iff.1 found
    cases same
    obtain ⟨-, filled, symbols⟩ := operator?_spec known
    exact ⟨wordy_targetBefore target, ⟨filled, fun c mem => List.contains_iff_mem.1 (symbols c mem)⟩,
      nameAtStart_targetBefore target⟩

theorem wordy_params (h : classify code = .ok (.defHeader name params)) : ∀ param ∈ params, Wordy param := by
  intro param mem c inside
  cases classify_ok h with
  | defHeader _ _ named => exact .inl (Signature.parameterNames_chars named param mem c inside)

theorem plain_assigned (h : classify code = .ok construct)
    (assigns : construct = .assignment target valueStart ∨ construct = .annotated target valueStart) : Plain target :=
  (wordy_assigned h assigns).plain

theorem plain_augmented (h : classify code = .ok (.augmented target operator valueStart)) :
    Plain target ∧ Plain operator ∧ nameAtStart target ≠ [] :=
  (wordy_augmented h).imp Wordy.plain (.imp_left Symbols.plain)

theorem plain_params (h : classify code = .ok (.defHeader name params)) : ∀ param ∈ params, Plain param :=
  fun param mem => (wordy_params h param mem).plain

/-! ## Pieces of a statement -/

theorem Guards.plain {guards : List Piece} (h : Guards st level pass guards pass') : ∀ piece ∈ guards, piece.Plain := by
  intro piece mem
  obtain ⟨site, limit, rfl⟩ := h.mem mem
  exact trivial

theorem plain_probe : Piece.Plain (.injected level (.probe none) origin) := by
  rintro _ ⟨⟩

theorem plain_showing (h : LineProbe.Plain text) : Piece.Plain (.injected level (.probe (some text)) origin) := by
  rintro _ ⟨⟩
  exact h

theorem plain_parameters (h : ∀ param ∈ params, LineProbe.Plain param) :
    ∀ piece ∈ params.map fun name => st.inject level (.parameter name), piece.Plain := by
  intro piece mem
  obtain ⟨name, known, rfl⟩ := List.mem_map.1 mem
  exact h name known

theorem eq_of_mem_interior (mem : piece ∈ st.interior level) : ∃ origin, piece = .injected level (.probe none) origin := by
  unfold Statement.interior at mem
  split at mem
  · obtain ⟨offset, -, rfl⟩ := List.mem_map.1 mem
    exact ⟨_, rfl⟩
  · cases mem

theorem plain_interior (st : Statement) (level : Nat) : ∀ piece ∈ st.interior level, piece.Plain := by
  intro piece mem
  obtain ⟨origin, rfl⟩ := eq_of_mem_interior mem
  exact plain_probe

theorem plain_orPass (h : ∀ piece ∈ pieces, piece.Plain) : ∀ piece ∈ orPass st level pieces, piece.Plain := by
  unfold orPass
  split
  · simp only [List.forall_mem_singleton]
    exact trivial
  · exact h

theorem Heads.plain {parts : HeaderParts} (h : Heads script st construct pass parts pass')
    (indented : '\n' ∉ st.indentation)
    (named : ∀ name params, construct = .defHeader name params → ∀ param ∈ params, LineProbe.Plain param) :
    (∀ piece ∈ parts.before ++ parts.header, piece.Plain) ∧ ∀ piece ∈ parts.prologue, piece.Plain := by
  have marks (keys : List Int) : ∀ piece ∈ keys.map fun key => st.inject st.level (.mark key), piece.Plain := by
    intro piece mem
    obtain ⟨key, -, rfl⟩ := List.mem_map.1 mem
    exact trivial
  have inside := plain_interior st (st.level + 1)
  cases h with
  | loop marked guarded =>
    simp only [List.forall_mem_append, List.forall_mem_singleton, List.forall_mem_cons]
    exact ⟨⟨⟨marks _, trivial, plain_showing (plain_tempName _)⟩, indented⟩, ⟨trivial, guarded.plain⟩, inside⟩
  | definition marked guarded =>
    simp only [List.forall_mem_append, List.forall_mem_singleton]
    exact ⟨⟨marks _, trivial⟩, ⟨plain_parameters (named _ _ rfl), guarded.plain⟩, inside⟩
  | block marked guarded =>
    simp only [List.forall_mem_append, List.forall_mem_singleton]
    refine ⟨⟨⟨marks _, ?_⟩, trivial⟩, ⟨?_, guarded.plain⟩, inside⟩
    · split
      · simp only [List.forall_mem_singleton]
        exact plain_probe
      · simp
    · split
      · simp only [List.forall_mem_singleton]
        exact trivial
      · simp

theorem plain_params_inlineConstruct (h : classify code = .ok construct)
    (same : inlineConstruct code construct = .defHeader name params) : ∀ param ∈ params, LineProbe.Plain param := by
  rcases inlineConstruct_cases code construct with kept | block
  · exact plain_params (kept.symm.trans same ▸ h)
  · cases block.symm.trans same

theorem Dispatched.plainPieces (h : Dispatched script st pass step pass') (indented : '\n' ∉ st.indentation) :
    (∀ piece ∈ step.pieces, piece.Plain) ∧ ∀ piece ∈ step.prologue, piece.Plain := by
  induction h with
  | augmented construct guarded =>
    obtain ⟨target, operator, named⟩ := plain_augmented construct
    simp only [List.forall_mem_append, List.forall_mem_cons]
    refine ⟨⟨⟨guarded.plain, trivial, plain_showing ?_, ⟨target, operator, named⟩, by simp⟩, plain_interior _ _⟩,
      by simp⟩
    simp only [plain_append]
    exact ⟨⟨⟨⟨target, by decide⟩, operator⟩, by decide⟩, plain_tempName _⟩
  | assigned construct assigns guarded =>
    simp only [List.forall_mem_append, List.forall_mem_cons]
    exact ⟨⟨⟨guarded.plain, trivial, plain_showing (plain_assigned construct assigns), by simp⟩,
      plain_interior _ _⟩, by simp⟩
  | printed construct guarded =>
    simp only [List.forall_mem_append, List.forall_mem_singleton]
    exact ⟨⟨⟨guarded.plain, trivial⟩, plain_interior _ _⟩, by simp⟩
  | returned construct given guarded =>
    simp only [List.forall_mem_append, List.forall_mem_cons]
    exact ⟨⟨⟨guarded.plain, plain_interior _ _⟩, trivial, plain_showing (plain_tempName _), trivial, by simp⟩,
      by simp⟩
  | ended construct empty guarded =>
    simp only [List.forall_mem_append, List.forall_mem_cons]
    exact ⟨⟨⟨guarded.plain, plain_interior _ _⟩, plain_probe, trivial, by simp⟩, by simp⟩
  | opened construct opens heads body =>
    exact heads.plain indented fun name params same => plain_params (same ▸ construct)
  | openedEmpty construct opens heads empty =>
    obtain ⟨before, prologue⟩ := heads.plain indented fun name params same => plain_params (same ▸ construct)
    exact ⟨List.forall_mem_append.2 ⟨before, plain_orPass prologue⟩, by simp⟩
  | inline construct header heads body ih =>
    obtain ⟨before, prologue⟩ := heads.plain indented fun name params same =>
      plain_params_inlineConstruct header same
    obtain ⟨inner, last⟩ := ih (plain_render _ _).newline_not_mem
    refine ⟨?_, by simp⟩
    simp only [List.forall_mem_append] at before ⊢
    exact ⟨⟨⟨before, prologue⟩, inner⟩, last⟩
  | ignored construct guarded =>
    simp only [List.forall_mem_append, List.forall_mem_singleton]
    exact ⟨⟨⟨guarded.plain, plain_interior _ _⟩, trivial⟩, by simp⟩
  | plain construct simple guarded =>
    simp only [List.forall_mem_append, List.forall_mem_cons]
    exact ⟨⟨⟨guarded.plain, trivial, plain_probe, by simp⟩, plain_interior _ _⟩, by simp⟩

theorem Stepped.plainPieces (h : Stepped script source st pass step pass') (indented : '\n' ∉ st.indentation) :
    (∀ piece ∈ step.pieces, piece.Plain) ∧ ∀ piece ∈ step.prologue, piece.Plain := by
  cases h with
  | decorator construct =>
    simp only [List.forall_mem_singleton]
    exact ⟨trivial, by simp⟩
  | kept _ _ _ dispatched | replaced _ _ _ dispatched => exact dispatched.plainPieces indented

theorem plain_blankPieces (script : Script) (cursor : Int) (floor level : Nat) (after : List Text) :
    ∀ piece ∈ blankPieces script cursor floor level after, piece.Plain := by
  intro piece mem
  obtain ⟨level, -, rfl⟩ := List.mem_map.1 mem
  exact plain_probe

end Instrument

end LineProbe
