import LineProbe.Proofs.Decorated

/-!
# Tallies

A branch is registered before it may be reached and counted where it is entered.
-/

namespace LineProbe.Instrument

open Text Construct

variable {pass : Pass}

inductive Tally where
  | mark (key : Int)
  | enter (key : Int)
deriving DecidableEq

def tally? : Piece → Option Tally
  | .injected _ (.mark key) _ => some (.mark key)
  | .injected _ .enter origin => some (.enter origin)
  | _ => none

def tallies (pieces : List Piece) : List Tally :=
  pieces.filterMap tally?

/-- The pieces that a tally comes from. -/
def Tally.IsFrom (piece : Piece) : Tally → Prop
  | .mark key => ∃ level origin, piece = .injected level (.mark key) origin
  | .enter key => ∃ level, piece = .injected level .enter key

theorem tally?_eq_some_iff : tally? piece = some tally ↔ tally.IsFrom piece := by
  constructor
  · intro found
    unfold tally? at found
    split at found <;> cases found
    · exact ⟨_, _, rfl⟩
    · exact ⟨_, rfl⟩
  · cases tally with
    | mark key =>
      rintro ⟨level, origin, rfl⟩
      rfl
    | enter key =>
      rintro ⟨level, rfl⟩
      rfl

theorem mem_tallies : tally ∈ tallies pieces ↔ ∃ piece ∈ pieces, tally.IsFrom piece := by
  simp only [tallies, List.mem_filterMap, tally?_eq_some_iff]

theorem tallies_append (pieces pieces' : List Piece) : tallies (pieces ++ pieces') = tallies pieces ++ tallies pieces' :=
  List.filterMap_append

theorem tallies_eq_nil (h : ∀ piece ∈ pieces, tally? piece = none) : tallies pieces = [] :=
  List.filterMap_eq_nil_iff.2 h

/-! ## Branches that continue a choice -/

structure IsSibling (config : IndentConfig) (level : Nat) (line : Text) : Prop where
  visible : isBlankLine line = false
  level : config.measure line = level
  word : firstWord (trim line) ∈ (["elif", "else"] : List Text)

inductive Continues (config : IndentConfig) (level : Nat) : List (Except StatementError (Int × Text)) → Int → Prop where
  | here {position : Int} {line : Text} {heads : List (Except StatementError (Int × Text))}
    (branch : IsSibling config level line) : Continues config level (.ok (position, line) :: heads) position
  | later {position key : Int} {line : Text} {heads : List (Except StatementError (Int × Text))}
    (passed : isBlankLine line = true ∨ level < config.measure line ∨ IsSibling config level line)
    (rest : Continues config level heads key) : Continues config level (.ok (position, line) :: heads) key

def siblingLines (config : IndentConfig) (level : Nat) : List (Except StatementError (Int × Text)) → List Int
  | .ok (position, line) :: heads =>
    if isBlankLine line || level < config.measure line then siblingLines config level heads
    else if config.measure line = level && ["elif", "else"].contains (String.ofList (firstWord (trim line))) then
      position :: siblingLines config level heads
    else []
  | _ => []

theorem siblingBranches_ok (h : siblingBranches config level heads = .ok siblings) :
    siblings = siblingLines config level heads := by
  induction heads generalizing siblings with
  | nil =>
    cases h
    rfl
  | cons head heads ih =>
    cases head with
    | error cause => cases h
    | ok head =>
      obtain ⟨position, line⟩ := head
      rw [siblingBranches] at h
      rw [siblingLines]
      split at h
      · next passed => rw [if_pos passed, ih h]
      · next kept =>
        rw [if_neg kept]
        split at h
        · next branch =>
          rw [if_pos branch]
          cases found : siblingBranches config level heads with
          | error cause =>
            rw [found] at h
            cases h
          | ok others =>
            rw [found] at h
            cases h
            rw [ih found]
        · next other =>
          rw [if_neg other]
          cases h
          rfl

theorem isSibling_iff (visible : isBlankLine line = false) :
    (config.measure line = level && ["elif", "else"].contains (String.ofList (firstWord (trim line)))) ↔
      IsSibling config level line := by
  have word : ["elif", "else"].contains (String.ofList (firstWord (trim line))) ↔
      firstWord (trim line) ∈ (["elif", "else"] : List Text) := by
    have same (word : String) : String.ofList (firstWord (trim line)) = word ↔ firstWord (trim line) = word.toList := by
      constructor
      · rintro rfl
        rw [String.toList_ofList]
      · intro same
        rw [same, String.ofList_toList]
    simp only [List.contains_eq_mem, decide_eq_true_eq, List.mem_cons, List.not_mem_nil, or_false, same]
  rw [Bool.and_eq_true, decide_eq_true_eq, word]
  exact ⟨fun ⟨same, known⟩ => ⟨visible, same, known⟩, fun ⟨_, same, known⟩ => ⟨same, known⟩⟩

theorem mem_siblingLines : key ∈ siblingLines config level heads ↔ Continues config level heads key := by
  induction heads with
  | nil => constructor <;> intro h <;> cases h
  | cons head heads ih =>
    cases head with
    | error cause => constructor <;> intro h <;> cases h
    | ok head =>
      obtain ⟨position, line⟩ := head
      rw [siblingLines]
      split
      · next passed =>
        simp only [Bool.or_eq_true, decide_eq_true_eq] at passed
        have other : ¬ IsSibling config level line := by
          rintro ⟨visible, same, -⟩
          rcases passed with blank | deeper
          · rw [visible] at blank
            cases blank
          · omega
        rw [ih]
        constructor
        · exact .later (passed.imp id .inl)
        · rintro (branch | ⟨-, rest⟩)
          · exact absurd branch other
          · exact rest
      · next kept =>
        simp only [Bool.or_eq_true, decide_eq_true_eq, not_or, Bool.not_eq_true] at kept
        split
        · next branch =>
          have branch := (isSibling_iff kept.1).1 branch
          rw [List.mem_cons, ih]
          constructor
          · rintro (rfl | rest)
            · exact .here branch
            · exact .later (.inr (.inr branch)) rest
          · rintro (_ | ⟨-, rest⟩)
            · exact .inl rfl
            · exact .inr rest
        · next other =>
          have other := mt (isSibling_iff kept.1).2 other
          constructor
          · intro mem
            cases mem
          · rintro (branch | ⟨blank | deeper | branch, -⟩)
            · exact absurd branch other
            · rw [kept.1] at blank
              cases blank
            · exact absurd deeper kept.2
            · exact absurd branch other

/-! ## Headers -/

def counts : Construct → Bool
  | .forHeader .. => true
  | .blockHeader keyword => isBranch keyword
  | _ => false

def registers : Construct → Bool
  | .forHeader .. => true
  | .blockHeader keyword => keyword = "while" || keyword = "if"
  | _ => false

def headers (level : Nat) (code : Text) : List (Nat × Construct) :=
  match _h : classify code with
  | .ok (.inlineCompound colon) =>
    (level, inlineConstruct (code.take (colon + 1)) ((classify (code.take (colon + 1))).toOption.getD .plain)) ::
      headers (level + 1) (trimLeft (code.drop (colon + 1)))
  | .ok kind => if kind.opensBlock then [(level, kind)] else []
  | .error _ => []
termination_by code.length
decreasing_by exact length_trimLeft_drop_lt _h

theorem headers_inline (found : classify code = .ok (.inlineCompound colon))
    (header : classify (code.take (colon + 1)) = .ok kind) :
    headers level code = (level, inlineConstruct (code.take (colon + 1)) kind) ::
      headers (level + 1) (trimLeft (code.drop (colon + 1))) := by
  rw [headers]
  split
  · next same =>
    cases found.symm.trans same
    rw [header]
    rfl
  · next other same =>
    cases found.symm.trans same
    exact absurd rfl (other _)
  · next same => cases found.symm.trans same

theorem headers_of_other (found : classify code = .ok kind) (other : ∀ colon, kind ≠ .inlineCompound colon) :
    headers level code = if kind.opensBlock then [(level, kind)] else [] := by
  rw [headers]
  split
  · next same =>
    cases found.symm.trans same
    exact absurd rfl (other _)
  · next same =>
    cases found.symm.trans same
    rfl
  · next same => cases found.symm.trans same

theorem headers_of_simple (found : classify code = .ok kind) (other : ∀ colon, kind ≠ .inlineCompound colon)
    (simple : kind.opensBlock = false) : headers level code = [] := by
  rw [headers_of_other found other, simple]
  rfl

theorem level_le_of_mem_headers {inner : Nat} (mem : (inner, kind) ∈ headers level code) : level ≤ inner := by
  induction size : code.length using Nat.strongRecOn generalizing level code with
  | ind size_ ih =>
    subst size
    rw [headers] at mem
    split at mem
    · next found =>
      rcases List.mem_cons.1 mem with same | mem
      · cases same
        exact Nat.le_refl _
      · exact Nat.le_of_succ_le (ih _ (length_trimLeft_drop_lt found) mem rfl)
    · split at mem
      · cases List.mem_singleton.1 mem
        exact Nat.le_refl _
      · cases mem
    · cases mem

def branchKeys (script : Script) (first last : Int) (after : List Text) (level : Nat) : Construct → List Int
  | .forHeader .. => [first]
  | .blockHeader keyword =>
    if keyword = "while" then [first]
    else if keyword = "if" then first :: siblingLines script.indent level (statementHeads script.lines (last + 1) after)
    else []
  | _ => []

def headerTallies (script : Script) (first last : Int) (after : List Text) (header : Nat × Construct) : List Tally :=
  (branchKeys script first last after header.1 header.2).map .mark ++ if counts header.2 then [.enter first] else []

theorem counts_of_registers (h : registers kind) : counts kind := by
  cases kind with
  | forHeader => rfl
  | blockHeader keyword =>
    simp only [registers, Bool.or_eq_true, decide_eq_true_eq] at h
    rcases h with rfl | rfl <;> decide
  | _ => cases h

theorem enter_mem_headerTallies :
    .enter key ∈ headerTallies script first last after header ↔ counts header.2 ∧ key = first := by
  rw [headerTallies]
  cases counts header.2 <;> simp

theorem mark_mem_headerTallies :
    .mark key ∈ headerTallies script first last after (level, kind) ↔
      (registers kind ∧ key = first) ∨
      (kind = .blockHeader "if" ∧
        Continues script.indent level (statementHeads script.lines (last + 1) after) key) := by
  have split : .mark key ∈ headerTallies script first last after (level, kind) ↔
      key ∈ branchKeys script first last after level kind := by
    rw [headerTallies]
    cases counts kind <;> simp
  rw [split, ← mem_siblingLines]
  cases kind with
  | blockHeader keyword =>
    by_cases isWhile : keyword = "while"
    · subst isWhile
      simp [branchKeys, registers]
    · by_cases isIf : keyword = "if"
      · subst isIf
        simp [branchKeys, registers]
      · have other : registers (.blockHeader keyword) = false := by
          rw [registers, decide_eq_false isWhile, decide_eq_false isIf]
          rfl
        have notIf : Construct.blockHeader keyword ≠ .blockHeader "if" := fun same => isIf (Construct.blockHeader.inj same)
        rw [branchKeys, if_neg isWhile, if_neg isIf, other]
        constructor
        · intro mem
          cases mem
        · rintro (own | sibling)
          · cases own.1
          · exact absurd sibling.1 notIf
  | _ => simp [branchKeys, registers]

theorem BranchKeys.eq_branchKeys (h : BranchKeys script st construct keys) :
    keys = branchKeys script st.first st.last st.after st.level construct := by
  cases h with
  | loop | definition => rfl
  | repetition => rw [branchKeys, if_pos rfl]
  | choice found => rw [branchKeys, if_neg (by decide), if_pos rfl, siblingBranches_ok found]
  | other notWhile notIf => rw [branchKeys, if_neg notWhile, if_neg notIf]

theorem tallies_marks (st : Statement) (keys : List Int) :
    tallies (keys.map fun key => st.inject st.level (.mark key)) = keys.map .mark := by
  induction keys with
  | nil => rfl
  | cons key keys ih => exact congrArg (_ :: ·) ih

theorem Guards.tallies (h : Guards st level pass guards pass') : tallies guards = [] := by
  cases h <;> rfl

theorem tallies_interior (st : Statement) (level : Nat) : tallies (st.interior level) = [] := by
  apply tallies_eq_nil
  intro piece mem
  obtain ⟨origin, rfl⟩ := eq_of_mem_interior mem
  rfl

theorem tallies_parameters (st : Statement) (level : Nat) (names : List Text) :
    tallies (names.map fun name => st.inject level (.parameter name)) = [] := by
  apply tallies_eq_nil
  intro piece mem
  obtain ⟨name, -, rfl⟩ := List.mem_map.1 mem
  rfl

theorem tallies_orPass (st : Statement) (level : Nat) (pieces : List Piece) :
    tallies (orPass st level pieces) = tallies pieces := by
  unfold orPass
  split
  · next empty =>
    rw [List.isEmpty_iff.1 empty]
    rfl
  · rfl

theorem Heads.tallies (h : Heads script st construct pass parts pass') :
    Instrument.tallies (parts.before ++ parts.header) ++ Instrument.tallies parts.prologue =
      headerTallies script st.first st.last st.after (st.level, construct) := by
  cases h with
  | loop marked guarded =>
    simp only [tallies_append, tallies_marks, guarded.tallies, tallies_interior, marked.eq_branchKeys, headerTallies]
    rfl
  | definition marked guarded =>
    simp only [tallies_append, tallies_marks, guarded.tallies, tallies_interior, tallies_parameters,
      marked.eq_branchKeys, headerTallies]
    rfl
  | @block keyword _ _ _ _ marked guarded =>
    have probes : Instrument.tallies (if isProbed keyword then [st.inject st.level (.probe none)] else []) = [] := by
      split <;> rfl
    have enters : Instrument.tallies (if isBranch keyword then [st.inject (st.level + 1) .enter] else []) =
        if isBranch keyword then [.enter st.first] else [] := by
      split <;> rfl
    simp only [tallies_append, tallies_marks, guarded.tallies, tallies_interior, probes, enters, marked.eq_branchKeys,
      headerTallies, List.append_nil]
    change _ ++ [] ++ _ = _
    rw [List.append_nil]
    rfl

theorem Dispatched.tallies (h : Dispatched script st pass step pass') :
    Instrument.tallies step.pieces ++ Instrument.tallies step.prologue =
      (headers st.level st.body).flatMap (headerTallies script st.first st.last st.after) := by
  induction h with
  | augmented construct guarded | printed construct guarded | returned construct _ guarded
  | ended construct _ guarded | ignored construct guarded =>
    rw [headers_of_simple construct (by simp) rfl]
    simp only [tallies_append, guarded.tallies, tallies_interior]
    rfl
  | assigned construct assigns guarded =>
    rcases assigns with rfl | rfl
    all_goals
      rw [headers_of_simple construct (by simp) rfl]
      simp only [tallies_append, guarded.tallies, tallies_interior]
      rfl
  | plain construct simple guarded =>
    rcases simple with rfl | rfl
    all_goals
      rw [headers_of_simple construct (by simp) rfl]
      simp only [tallies_append, guarded.tallies, tallies_interior]
      rfl
  | opened construct opens heads _ =>
    rw [headers_of_other construct (by rintro colon rfl; cases opens), if_pos opens, heads.tallies]
    simp
  | openedEmpty construct opens heads _ =>
    rw [headers_of_other construct (by rintro colon rfl; cases opens), if_pos opens]
    simp only [tallies_append, tallies_orPass]
    rw [← tallies_append, heads.tallies]
    simp [Instrument.tallies]
  | @inline st _ _ _ colon kind parts inner construct header heads _ ih =>
    rw [headers_inline construct header, List.flatMap_cons]
    have whole := heads.tallies
    simp only [tallies_append] at whole ⊢
    rw [whole, List.append_assoc, List.append_assoc, ← List.append_assoc (Instrument.tallies inner.pieces), ih]
    simp [Instrument.tallies, Statement.inlineBody, Statement.inlineHead]

/-! ## Statements -/

def statementTallies (script : Script) (source : LogicalStatement) (after : List Text) (code : Text) : List Tally :=
  (headers (script.indent.measure source.opening) code).flatMap (headerTallies script source.first source.last after)

theorem headers_of_decorator {source : LogicalStatement} (construct : classify source.body = .ok .decorator)
    (callLimit : Int) (site level : Nat) : headers level (source.emitted callLimit site) = [] := by
  have swapped := substituteBlocking_enclosed source.body source.first source.directives callLimit site
  cases classify_ok construct with
  | decorator known =>
    obtain ⟨head, -⟩ := decorator?_iff.1 known
    obtain ⟨behind, body⟩ := List.head?_eq_some_iff.1 head
    rw [body, ← List.nil_append (_ :: _)] at swapped
    obtain ⟨behind', emitted, -⟩ := swapped.front (by simp) (by decide) (by decide)
    have found : classify (source.emitted callLimit site) = .ok .decorator := by
      rw [LogicalStatement.emitted, body, ← List.nil_append (_ :: _), emitted, classify_eq, early?,
        decorator?_iff.2 ⟨rfl, rfl⟩]
      rfl
    exact headers_of_simple found (by simp) rfl

theorem headerTallies_of_string (opens : OpensString code) (first last : Int) (after : List Text) (level : Nat) :
    headerTallies script first last after (level, .blockHeader (firstWord code)) = [] := by
  have notBranch := opens.firstWord_not_mem ["while", "if"] (by decide)
  have uncounted : isBranch (firstWord code) = false := by
    simpa [isBranch] using opens.firstWord_not_mem branchKeywords (by decide)
  simp only [List.mem_cons, List.not_mem_nil, or_false, not_or] at notBranch
  rw [headerTallies, branchKeys, if_neg notBranch.1, if_neg notBranch.2, counts, uncounted]
  rfl

theorem Dispatched.tallies_of_string (h : Dispatched script st pass step pass') (opens : OpensString st.body) :
    Instrument.tallies step.pieces = [] := by
  have whole := h.tallies
  obtain ⟨kind, found⟩ := h.classified
  rcases opens.construct found with ⟨-, rfl⟩ | ⟨-, rfl⟩
  · rw [headers_of_simple found (by simp) rfl] at whole
    exact (List.append_eq_nil_iff.1 whole).1
  · have one : headers st.level st.body = [(st.level, .blockHeader (firstWord st.body))] :=
      headers_of_other found (by simp)
    rw [one, List.flatMap_cons, headerTallies_of_string opens] at whole
    exact (List.append_eq_nil_iff.1 whole).1

theorem tallies_placePrologue (pending : List Piece) (none_ : documents = true → tallies pieces = []) :
    tallies (placePrologue documents pending pieces) = tallies pending ++ tallies pieces := by
  unfold placePrologue
  split
  · next documents => rw [tallies_append, none_ documents, List.append_nil, List.nil_append]
  · rw [tallies_append]

theorem Stepped.tallies
    (h : Stepped script (assemble cursor line rest) (statementOf script (assemble cursor line rest) line after) pass step pass')
    (visible : isBlankLine line = false) (pending : List Piece) :
    ∃ site, Instrument.tallies (placePrologue (isDocstring line) pending step.pieces) ++
        Instrument.tallies step.prologue =
      Instrument.tallies pending ++ statementTallies script (assemble cursor line rest) after
        ((assemble cursor line rest).emitted script.callLimit site) := by
  by_cases construct : classify (assemble cursor line rest).body = .ok .decorator
  · refine ⟨0, ?_⟩
    rw [h.of_decorator visible construct, statementTallies, headers_of_decorator construct,
      tallies_placePrologue pending fun _ => rfl]
    simp [Instrument.tallies, tally?]
  · obtain ⟨site, between, dispatched⟩ := h.emitted visible construct
    have none_ (documents : isDocstring line = true) : Instrument.tallies step.pieces = [] := by
      apply dispatched.tallies_of_string
      have opens := (opensString_of_isDocstring documents).body cursor rest visible
      exact opens.swapped (substituteBlocking_enclosed _ _ _ script.callLimit site)
    refine ⟨site, ?_⟩
    rw [tallies_placePrologue pending none_, List.append_assoc, dispatched.tallies]
    rfl

end LineProbe.Instrument
