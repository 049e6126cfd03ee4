import LineProbe.Proofs.Range
import Mathlib.Data.List.Forall2

/-!
# The code of the script in its instrumented form

Besides the lines that are put in to report, count and guard, an instrumented script consists of its own statements,
each in the form that its construct asks for.
-/

namespace LineProbe

def Injection.isOwn : Injection → Bool
  | .update .. | .giveBack _ => true
  | .probe _ | .parameter _ | .mark _ | .enter | .limitGuard .. | .pass | .callMock .. => false

def Piece.isOwn : Piece → Bool
  | .code .. | .header .. | .binding .. | .loopHead .. => true
  | .injected _ what _ => what.isOwn

def Construct.isVerbatim : Construct → Bool
  | .assignment .. | .annotated .. | .plain | .ignorable _ | .defHeader .. | .blockHeader _ => true
  | .decorator | .augmented .. | .printCall .. | .forHeader .. | .returning _ | .inlineCompound _ => false

namespace Instrument

open Construct

variable {pass : Pass}

/-! ## Forms of own code -/

inductive OwnHead (st : Statement) : Construct → List Piece → Prop where
  | loop {head iterable : Text} {temp : Temp} :
    OwnHead st (.forHeader head iterable) [st.bind temp iterable, .loopHead st.indentation head temp st.first]
  | definition {name : Text} {params : List Text} : OwnHead st (.defHeader name params) [st.heading]
  | block {keyword : Text} : OwnHead st (.blockHeader keyword) [st.heading]

inductive OwnForm (config : IndentConfig) : Statement → List Piece → Prop where
  | augmented {st : Statement} {target operator : Text} {valueStart : Nat} {temp : Temp}
    (construct : classify st.body = .ok (.augmented target operator valueStart)) :
    OwnForm config st [st.bind temp ("(" ++ st.mock.getD (Text.trim (st.body.drop valueStart)) ++ ")"),
      st.inject st.level (.update target operator temp)]
  | assigned {st : Statement} {kind : Construct} {target : Text} {valueStart : Nat}
    (construct : classify st.body = .ok kind)
    (assigns : kind = .assignment target valueStart ∨ kind = .annotated target valueStart) :
    OwnForm config st [st.own (st.body.take valueStart ++ assignedValue st valueStart)]
  | printed {st : Statement} {openParen closeParen : Nat}
    (construct : classify st.body = .ok (.printCall openParen closeParen)) :
    OwnForm config st [st.own (splicedBody st openParen closeParen)]
  | returned {st : Statement} {value : Text} {temp : Temp} (construct : classify st.body = .ok (.returning value))
    (given : st.mock.getD value ≠ []) :
    OwnForm config st [st.bind temp ("(" ++ st.mock.getD value ++ ")"),
      st.inject st.level (.giveBack (some temp))]
  | ended {st : Statement} {value : Text} (construct : classify st.body = .ok (.returning value))
    (empty : st.mock.getD value = []) : OwnForm config st [st.inject st.level (.giveBack none)]
  | opened {st : Statement} {kind : Construct} {block : List Piece} (construct : classify st.body = .ok kind)
    (head : OwnHead st kind block) : OwnForm config st block
  | inline {st : Statement} {colon : Nat} {kind : Construct} {front back : List Piece}
    (construct : classify st.body = .ok (.inlineCompound colon))
    (header : classify (st.inlineHead colon).body = .ok kind)
    (head : OwnHead (st.inlineHead colon) (inlineConstruct (st.inlineHead colon).body kind) front)
    (body : OwnForm config (st.inlineBody config colon) back) : OwnForm config st (front ++ back)
  | ignored {st : Statement} {keyword : Text} (construct : classify st.body = .ok (.ignorable keyword)) :
    OwnForm config st [st.own st.body]
  | plain {st : Statement} {kind : Construct} (construct : classify st.body = .ok kind)
    (simple : kind = .decorator ∨ kind = .plain) : OwnForm config st [st.own (plainBody st)]

def asStatement (script : Script) (source : LogicalStatement) (after : List Text) : Statement :=
  statementOf script source (source.lines.headD []) after

inductive OwnBlock (script : Script) (source : LogicalStatement) : List Piece → Prop where
  | decorator (construct : classify source.body = .ok .decorator) :
    OwnBlock script source [.code source.text source.first source.last]
  | kept {after : List Text} {block : List Piece} (other : classify source.body ≠ .ok .decorator)
    (free : hasBlockingCall source.body = false)
    (form : OwnForm script.indent (asStatement script source after) block) : OwnBlock script source block
  | replaced {after : List Text} {site : Nat} {block : List Piece} (other : classify source.body ≠ .ok .decorator)
    (blocking : hasBlockingCall source.body = true)
    (form : OwnForm script.indent ((asStatement script source after).replaced script site) block) :
    OwnBlock script source block

/-! ## Own code of a step -/

theorem own_interior (st : Statement) (level : Nat) : (st.interior level).filter Piece.isOwn = [] := by
  unfold Statement.interior
  split
  · simp [List.filter_map, Function.comp_def, Piece.isOwn, Injection.isOwn]
  · rfl

theorem Guards.own (h : Guards st level pass guards pass') : guards.filter Piece.isOwn = [] := by
  cases h <;> rfl

theorem own_marks (st : Statement) (keys : List Int) :
    (keys.map fun key => st.inject st.level (.mark key)).filter Piece.isOwn = [] := by
  simp [List.filter_map, Function.comp_def, Statement.inject, Piece.isOwn, Injection.isOwn]

theorem own_parameters (st : Statement) (level : Nat) (params : List Text) :
    (params.map fun name => st.inject level (.parameter name)).filter Piece.isOwn = [] := by
  simp [List.filter_map, Function.comp_def, Statement.inject, Piece.isOwn, Injection.isOwn]

theorem Heads.own (h : Heads script st construct pass parts pass') :
    OwnHead st construct ((parts.before ++ parts.header).filter Piece.isOwn) ∧
      parts.prologue.filter Piece.isOwn = [] := by
  cases h with
  | loop marked guarded =>
    simp only [List.filter_append, own_marks, guarded.own, own_interior]
    exact ⟨.loop, rfl⟩
  | definition marked guarded =>
    simp only [List.filter_append, own_marks, own_parameters, guarded.own, own_interior]
    exact ⟨.definition, rfl⟩
  | block marked guarded =>
    simp only [List.filter_append, own_marks, guarded.own, own_interior]
    constructor
    · split <;> exact .block
    · split <;> rfl

theorem own_orPass (h : pieces.filter Piece.isOwn = []) : (orPass st level pieces).filter Piece.isOwn = [] := by
  unfold orPass
  split
  · rfl
  · exact h

theorem Dispatched.own (h : Dispatched script st pass step pass') :
    OwnForm script.indent st (step.pieces.filter Piece.isOwn) ∧ step.prologue.filter Piece.isOwn = [] := by
  induction h with
  | augmented construct guarded =>
    simp only [List.filter_append, guarded.own, own_interior]
    exact ⟨.augmented construct, rfl⟩
  | assigned construct assigns guarded =>
    simp only [List.filter_append, guarded.own, own_interior]
    exact ⟨.assigned construct assigns, rfl⟩
  | printed construct guarded =>
    simp only [List.filter_append, guarded.own, own_interior]
    exact ⟨.printed construct, rfl⟩
  | returned construct given guarded =>
    simp only [List.filter_append, guarded.own, own_interior]
    exact ⟨.returned construct given, rfl⟩
  | ended construct empty guarded =>
    simp only [List.filter_append, guarded.own, own_interior]
    exact ⟨.ended construct empty, rfl⟩
  | opened construct opens heads body => exact ⟨.opened construct heads.own.1, heads.own.2⟩
  | openedEmpty construct opens heads empty =>
    rw [List.filter_append, own_orPass heads.own.2, List.append_nil]
    exact ⟨.opened construct heads.own.1, rfl⟩
  | inline construct header heads body ih =>
    simp only [List.filter_append _ _, heads.own.2, ih.2, List.append_nil]
    have head := heads.own.1
    rw [List.filter_append] at head
    exact ⟨.inline construct header head ih.1, rfl⟩
  | ignored construct guarded =>
    simp only [List.filter_append, guarded.own, own_interior]
    exact ⟨.ignored construct, rfl⟩
  | plain construct simple guarded =>
    simp only [List.filter_append, guarded.own, own_interior]
    exact ⟨.plain construct simple, rfl⟩

theorem Stepped.own (visible : isBlankLine line = false)
    (h : Stepped script (assemble cursor line rest) (statementOf script (assemble cursor line rest) line after) pass step pass') :
    OwnBlock script (assemble cursor line rest) (step.pieces.filter Piece.isOwn) ∧
      step.prologue.filter Piece.isOwn = [] := by
  have body := body_statementOf script cursor rest after visible
  have same : statementOf script (assemble cursor line rest) line after =
      asStatement script (assemble cursor line rest) after := by
    rw [asStatement, headD_lines_assemble]
  cases h with
  | decorator construct =>
    rw [body] at construct
    exact ⟨.decorator construct, rfl⟩
  | kept construct other free dispatched =>
    rw [body] at construct free
    have apart : classify (assemble cursor line rest).body ≠ .ok .decorator := by simpa [construct] using other
    exact ⟨.kept apart free (same ▸ dispatched.own.1), dispatched.own.2⟩
  | replaced construct other blocking dispatched =>
    rw [body] at construct blocking
    have apart : classify (assemble cursor line rest).body ≠ .ok .decorator := by simpa [construct] using other
    exact ⟨.replaced apart blocking (same ▸ dispatched.own.1), dispatched.own.2⟩

/-! ## Own code of a script -/

theorem OwnHead.ne_nil {block : List Piece} (h : OwnHead st construct block) : block ≠ [] := by
  cases h <;> simp

theorem OwnForm.ne_nil (h : OwnForm config st block) : block ≠ [] := by
  cases h with
  | opened _ head => exact head.ne_nil
  | inline _ _ head _ => simp [head.ne_nil]
  | _ => simp

theorem OwnBlock.ne_nil (h : OwnBlock script source block) : block ≠ [] := by
  cases h with
  | decorator _ => simp
  | kept _ _ form | replaced _ _ form => exact form.ne_nil

theorem OwnForm.verbatim (h : OwnForm config st block) (construct : classify st.body = .ok kind)
    (kept : kind.isVerbatim) (unmocked : st.mock = none) :
    block = [.code (st.indentation ++ st.body) st.first st.last] ∨
      block = [.header (st.indentation ++ st.body) st.first st.last] := by
  cases h with
  | assigned found assigns =>
    left
    rw [assignedValue, unmocked, List.take_append_drop]
    rfl
  | plain found simple =>
    left
    rw [plainBody, unmocked]
    rfl
  | ignored found => exact .inl rfl
  | opened found head =>
    rw [found] at construct
    cases construct
    cases head with
    | loop => cases kept
    | definition | block => exact .inr rfl
  | augmented found | printed found | returned found | ended found | inline found =>
    rw [found] at construct
    cases construct
    cases kept

/-- What is known of the own code of a statement: its form, and the lines of code that is kept. -/
structure OwnCode (script : Script) (source : LogicalStatement) (block : List Piece) : Prop where
  form : OwnBlock script source block
  nonempty : block ≠ []
  decorator : classify source.body = .ok .decorator →
    renderPieces script.indent block = codeLines source.text source.first source.last
  verbatim : ∀ kind, classify source.body = .ok kind → kind.isVerbatim = true → source.directives.mock = none →
    hasBlockingCall source.body = false →
    renderPieces script.indent block = codeLines source.code source.first source.last

theorem OwnBlock.ownCode (visible : isBlankLine line = false) (h : OwnBlock script (assemble cursor line rest) block) :
    OwnCode script (assemble cursor line rest) block := by
  refine ⟨h, h.ne_nil, fun decorator => ?_, fun kind construct kept unmocked free => ?_⟩
  · cases h with
    | decorator _ => simp [renderPieces, Piece.lines]
    | kept other | replaced other => exact absurd decorator other
  · cases h with
    | decorator found =>
      rw [found] at construct
      cases construct
      cases kept
    | replaced _ blocking => simp [free] at blocking
    | @kept after _ _ _ form =>
      have whole := leadingBlanks_append_body_assemble cursor rest visible
      have body := body_statementOf script cursor rest after visible
      rw [asStatement, headD_lines_assemble] at form
      rw [← body] at construct whole
      rcases form.verbatim construct kept unmocked with rfl | rfl <;>
      · rw [← whole, renderPieces, List.flatMap_singleton]
        rfl

theorem own_blankPieces (script : Script) (cursor : Int) (floor level : Nat) (after : List Text) :
    (blankPieces script cursor floor level after).filter Piece.isOwn = [] := by
  unfold blankPieces
  cases blankLevel? script cursor floor level after <;> rfl

theorem own_placePrologue (documents : Bool) (pieces : List Piece) (h : pending.filter Piece.isOwn = []) :
    (placePrologue documents pending pieces).filter Piece.isOwn = pieces.filter Piece.isOwn := by
  unfold placePrologue
  split <;> simp [List.filter_append, h]

theorem Walks.own (walk : Walks script level pending cursor lines pass sources pieces pass')
    (h : pending.filter Piece.isOwn = []) :
    ∃ blocks, List.Forall₂ (OwnCode script) sources blocks ∧ pieces.filter Piece.isOwn = blocks.flatten := by
  induction walk with
  | done => exact ⟨[], .nil, h⟩
  | blank _ _ ih =>
    obtain ⟨blocks, each, all⟩ := ih rfl
    refine ⟨blocks, each, ?_⟩
    rw [List.filter_append, List.filter_append, h, own_blankPieces, all]
    rfl
  | statement visible found stepped _ ih =>
    subst found
    obtain ⟨block, prologue⟩ := stepped.own visible
    obtain ⟨blocks, each, all⟩ := ih prologue
    refine ⟨_ :: blocks, .cons (block.ownCode visible) each, ?_⟩
    rw [List.filter_append, own_placePrologue _ _ h, all, List.flatten_cons]

/-- Every logical statement has one block of own code, in the order of the script, and all own code
belongs to one of them. -/
theorem own_code_in_order {script : Script} {pieces : List Piece} {pass : Pass}
    (unhoisted : script.hoisted = [])
    (unmocked : ∀ source ∈ logicalStatements script.lines, mocksDef source = false)
    (run : wholeScript script = .ok (pieces, pass)) :
    ∃ blocks, List.Forall₂ (OwnCode script) (logicalStatements script.lines) blocks ∧
      pieces.filter Piece.isOwn = blocks.flatten :=
  (wholeScript_walks run unhoisted unmocked).own rfl

def sampleScript : Script where
  lines := List.map String.toList
    ["@cached", "def f(a):", "    'Adds.'", "    for b in [a,", "              a]:", "        a += b  # limit(3)",
      "", "    return", "if f(1): x = input()"]
  indent := .standard
  callLimit := 100
  hoisted := []

theorem own_code_in_order_sample :
    (∀ source ∈ logicalStatements sampleScript.lines, mocksDef source = false) ∧
      ∃ pieces pass, wholeScript sampleScript = .ok (pieces, pass) ∧
        ∃ blocks, List.Forall₂ (OwnCode sampleScript) (logicalStatements sampleScript.lines) blocks ∧
          pieces.filter Piece.isOwn = blocks.flatten := by
  have unmocked : ∀ source ∈ logicalStatements sampleScript.lines, mocksDef source = false := by
    decide +kernel
  have runs : (wholeScript sampleScript).isOk = true := by
    decide +kernel
  obtain ⟨⟨pieces, pass⟩, run⟩ := exists_ok runs
  exact ⟨unmocked, pieces, pass, run, own_code_in_order rfl unmocked run⟩

end Instrument

end LineProbe
