import LineProbe.Proofs.Range

/-!
# Turns of the driver

The driver takes its range in turns.
-/

namespace LineProbe.Instrument

variable {pass : Pass}

structure Turn where
  cursor : Int
  next : Int
  pieces : List Piece
  prologue : List Piece
  documents : Bool
  level : Nat
  behind : List Text

structure MockedHead where
  length : Nat
  asWritten : List Piece
  shadow : Temp

def mockedHead (script : Script) (source : LogicalStatement) (st : Statement) (after : List Text) :
    Emit MockedHead := do
  count .mockedDef
  let length ← blockLength script st.level (st.last + 1) after
  let asWritten ← plainDef script.indent source st (after.take length)
  return ⟨length, asWritten, ⟨.mocked, ← drawNumber⟩⟩

def mockedBody (script : Script) (st : Statement) (mocked : MockedDef) (block : List Text) : Emit (List Piece) :=
  if hasBody script.indent block st.level then
    range script (st.level + 1) (st.level + 1) (mockedPrologue st mocked) (st.last + 1) block
  else pure (orPass st (st.level + 1) (mockedPrologue st mocked))

def turn (script : Script) (floor level : Nat) (cursor : Int) (line : Text) (rest : List Text) : Emit Turn :=
  if script.hoisted.contains cursor then pure ⟨cursor, cursor + 1, [], [], false, level, rest⟩
  else if isBlankLine line then
    pure ⟨cursor, cursor + 1, blankPieces script cursor floor level rest, [], false, level, rest⟩
  else do
    let source ← nextStatement script cursor line rest
    let after := behind source rest
    let st := statementOf script source line after
    let documents := Construct.isDocstring line
    match ← mockedDef? st with
    | none => do
      let step ← statementStep script source st
      return ⟨cursor, source.last + 1, step.pieces, step.prologue, documents, step.nextLevel, after⟩
    | some mocked => do
      let head ← mockedHead script source st after
      let body ← mockedBody script st mocked (after.take head.length)
      let header := renameDef mocked.name head.shadow.name none source.text
      let pieces := head.asWritten ++ .header header st.first st.last :: body ++
        [st.inject st.level (.callMock head.shadow mocked.arguments)]
      return ⟨cursor, source.last + 1 + head.length, pieces, [], documents, st.level, after.drop head.length⟩

theorem range_cons (script : Script) (floor level : Nat) (pending : List Piece) (cursor : Int) (line : Text)
    (rest : List Text) :
    range script floor level pending cursor (line :: rest) = do
      let first ← turn script floor level cursor line rest
      let later ← range script floor first.level first.prologue first.next first.behind
      return placePrologue first.documents pending first.pieces ++ later := by
  rw [range, turn]
  split
  · simp only [pure_bind, placePrologue, Bool.false_eq_true, if_false, List.append_nil]
  split
  · simp only [pure_bind, placePrologue, Bool.false_eq_true, if_false]
  · simp only [bind_assoc]
    refine bind_congr fun source => bind_congr fun found => ?_
    cases found with
    | none => simp only [bind_assoc, pure_bind]
    | some mocked =>
      simp only [mockedHead, mockedBody, bind_assoc, pure_bind]
      refine bind_congr fun _ => bind_congr fun length => bind_congr fun asWritten => bind_congr fun number => ?_
      split <;> rfl

/-! ## What a turn may do -/

inductive Copied (script : Script) (st : Statement) (mocked : MockedDef) (block : List Text) :
    Pass → List Piece → Pass → Prop where
  | filled {pass pass' : Pass} {body : List Piece} (filled : hasBody script.indent block st.level = true)
    (inner : Runs script (st.level + 1) (st.level + 1) (mockedPrologue st mocked) (st.last + 1) block pass body
      pass') :
    Copied script st mocked block pass body pass'
  | empty {pass : Pass} (empty : hasBody script.indent block st.level = false) :
    Copied script st mocked block pass (orPass st (st.level + 1) (mockedPrologue st mocked)) pass

theorem mockedBody_ok (h : (mockedBody script st mocked block).run pass = .ok (body, pass')) :
    Copied script st mocked block pass body pass' := by
  unfold mockedBody at h
  split at h
  · next filled => exact .filled filled (range_ok h)
  · next unfilled =>
    rw [run_pure_ok] at h
    cases h
    exact .empty (by simpa using unfilled)

theorem mockedHead_ok (h : (mockedHead script source st after).run pass = .ok (head, pass')) :
    ∃ stop guards guarded,
      blockEnd? script.indent st.level (statementHeads script.lines (st.last + 1) after) = .ok stop ∧
      Guards st (st.level + 1) (pass.counted .mockedDef) guards guarded ∧ pass' = guarded.drawn ∧
      head = ⟨lengthBefore (st.last + 1) after stop,
        .header source.text st.first st.last :: guards ++
          writtenBody script.indent st (after.take (lengthBefore (st.last + 1) after stop)),
        ⟨.mocked, guarded.next⟩⟩ := by
  simp only [mockedHead, run_bind_ok, run_count, run_drawNumber, run_pure_ok] at h
  obtain ⟨_, _, counted, length, _, ends, asWritten, guarded, written, number, _, draw, h⟩ := h
  cases counted
  cases draw
  cases h
  obtain ⟨rfl, stop, stops, rfl⟩ := blockLength_ok ends
  obtain ⟨guards, placed, rfl⟩ := plainDef_ok written
  exact ⟨stop, guards, guarded, stops, placed, rfl, rfl⟩

inductive Turned (script : Script) (floor level : Nat) (cursor : Int) (line : Text) (rest : List Text) :
    Turn → Prop where
  | hoisted (hoisted : script.hoisted.contains cursor = true) :
    Turned script floor level cursor line rest ⟨cursor, cursor + 1, [], [], false, level, rest⟩
  | blank (blank : isBlankLine line = true) :
    Turned script floor level cursor line rest
      ⟨cursor, cursor + 1, blankPieces script cursor floor level rest, [], false, level, rest⟩
  | statement {source : LogicalStatement} {step : Step} {pass pass' : Pass}
    (found : statementIn script.lines cursor line rest = .ok source)
    (stepped : Stepped script source (statementOf script source line (behind source rest)) pass step pass') :
    Turned script floor level cursor line rest
      ⟨cursor, source.last + 1, step.pieces, step.prologue, Construct.isDocstring line, step.nextLevel,
        behind source rest⟩
  | mocked {source : LogicalStatement} {st : Statement} {mocked : MockedDef} {stop : Option Int}
    {guards body : List Piece} {pass guarded copied : Pass} {length : Nat}
    (found : statementIn script.lines cursor line rest = .ok source)
    (same : st = statementOf script source line (behind source rest)) (mocks : MocksDef st mocked)
    (stops : blockEnd? script.indent st.level
      (statementHeads script.lines (source.last + 1) (behind source rest)) = .ok stop)
    (cut : length = lengthBefore (source.last + 1) (behind source rest) stop)
    (placed : Guards st (st.level + 1) pass guards guarded)
    (copy : Copied script st mocked ((behind source rest).take length) guarded.drawn body copied) :
    Turned script floor level cursor line rest
      ⟨cursor, source.last + 1 + length,
        mockedPieces script.indent source st ((behind source rest).take length) mocked ⟨.mocked, guarded.next⟩
          guards body,
        [], Construct.isDocstring line, st.level, (behind source rest).drop length⟩

theorem turn_ok (h : (turn script floor level cursor line rest).run pass = .ok (now, pass')) :
    Turned script floor level cursor line rest now := by
  unfold turn at h
  split at h
  · next hoisted =>
    rw [run_pure_ok] at h
    cases h
    exact .hoisted hoisted
  split at h
  · next blank =>
    rw [run_pure_ok] at h
    cases h
    exact .blank blank
  rw [run_bind_ok] at h
  obtain ⟨source, reached, assembled, h⟩ := h
  obtain ⟨rfl, found⟩ := nextStatement_ok assembled
  dsimp only at h
  rw [run_bind_ok] at h
  obtain ⟨mock?, reached, mocked, h⟩ := h
  obtain ⟨rfl, mocks, -⟩ := mockedDef?_ok mocked
  cases mock? with
  | none =>
    simp only [run_bind_ok, run_pure_ok] at h
    obtain ⟨step, between, stepped, h⟩ := h
    cases h
    exact .statement found (statementStep_ok stepped)
  | some mock =>
    simp only [run_bind_ok, run_pure_ok] at h
    obtain ⟨head, between, headed, body, copied, copy, h⟩ := h
    cases h
    obtain ⟨stop, guards, guarded, stops, placed, rfl, rfl⟩ := mockedHead_ok headed
    exact .mocked found rfl (mocks _ rfl) stops rfl placed (mockedBody_ok copy)

theorem Runs.turned (run : Runs script floor level pending cursor (line :: rest) pass pieces pass') :
    ∃ now between later, Turned script floor level cursor line rest now ∧
      Runs script floor now.level now.prologue now.next now.behind between later pass' ∧
      pieces = placePrologue now.documents pending now.pieces ++ later := by
  cases run with
  | hoisted hoisted run => exact ⟨_, _, _, .hoisted hoisted, run, by simp [placePrologue]⟩
  | blank _ blank run => exact ⟨_, _, _, .blank blank, run, by simp [placePrologue]⟩
  | statement _ _ found _ stepped run => exact ⟨_, _, _, .statement found stepped, run, rfl⟩
  | mocked _ _ found same mocks stops cut placed filled inner run =>
    subst same cut
    exact ⟨_, _, _, .mocked found rfl mocks stops rfl placed (.filled filled inner), run, rfl⟩
  | mockedEmpty _ _ found same mocks stops cut placed empty run =>
    subst same cut
    exact ⟨_, _, _, .mocked found rfl mocks stops rfl placed (.empty empty), run, rfl⟩

/-! ## The turns of a run -/

/-- A run over a range comes to a turn of it, or of the block of a mocked function in it. The range in which
the turn is taken ends at `stop`. -/
inductive TakesTurn (script : Script) : (floor level : Nat) → (cursor : Int) → List Text → Pass →
    (stop : Int) → Turn → Prop where
  | first {floor level : Nat} {cursor : Int} {line : Text} {rest : List Text} {pass pass' : Pass} {now : Turn}
    (taken : (turn script floor level cursor line rest).run pass = .ok (now, pass')) :
    TakesTurn script floor level cursor (line :: rest) pass (cursor + (line :: rest).length) now
  | later {floor level : Nat} {cursor stop : Int} {line : Text} {rest : List Text} {pass between : Pass}
    {earlier now : Turn} (taken : (turn script floor level cursor line rest).run pass = .ok (earlier, between))
    (next : TakesTurn script floor earlier.level earlier.next earlier.behind between stop now) :
    TakesTurn script floor level cursor (line :: rest) pass stop now
  | inside {floor level : Nat} {cursor stop : Int} {line : Text} {rest : List Text} {pass between : Pass}
    {source : LogicalStatement} {st : Statement} {mocked : MockedDef} {head : MockedHead} {now : Turn}
    (kept : script.hoisted.contains cursor = false) (visible : isBlankLine line = false)
    (found : statementIn script.lines cursor line rest = .ok source)
    (same : st = statementOf script source line (behind source rest)) (mocks : MocksDef st mocked)
    (headed : (mockedHead script source st (behind source rest)).run pass = .ok (head, between))
    (filled : hasBody script.indent ((behind source rest).take head.length) st.level = true)
    (next : TakesTurn script (st.level + 1) (st.level + 1) (st.last + 1) ((behind source rest).take head.length)
      between stop now) :
    TakesTurn script floor level cursor (line :: rest) pass stop now

end LineProbe.Instrument
