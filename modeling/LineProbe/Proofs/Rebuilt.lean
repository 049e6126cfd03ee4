import LineProbe.Proofs.Alignment
import LineProbe.Proofs.DigitLimit
import LineProbe.Proofs.Layout
import LineProbe.Proofs.Straight

/-!
# Rebuilt line maps

The map of a program is recorded while the program is generated, and can be rebuilt from the probes in its text.
-/

namespace LineProbe

open Text

/-! ## Paragraphs -/

structure Flush (text : Text) : Prop where
  starts : Starts text
  oneLine : '\n' ∉ text

structure ReportsOn (line : Nat) (text : Text) : Prop extends Flush text where
  digits : Probe.lineDigits? text = some (ofNat line)

structure OwnLine (text : Text) : Prop extends Flush text where
  silent : Probe.lineDigits? text = none
  unclosed : endsWithChar (trimRight text) ':' = false

inductive Paragraph (line : Nat) : List GeneratedLine → Prop where
  | empty : Paragraph line []
  | probe {probe : Text} (reports : ReportsOn line probe) : Paragraph line [⟨probe, some line⟩]
  | probed {own probe : Text} (code : OwnLine own) (reports : ReportsOn line probe) :
    Paragraph line [⟨own, some line⟩, ⟨probe, some line⟩]

inductive Paragraphs (bound : Nat) : List GeneratedLine → Prop where
  | nil : Paragraphs bound []
  | append {line : Nat} {lines later : List GeneratedLine} (within : line < bound) (first : Paragraph line lines)
    (behind : Paragraphs bound later) : Paragraphs bound (lines ++ later)

variable {program : Program}

theorem Paragraph.forall_mem (h : Paragraph line lines) :
    ∀ generated ∈ lines, '\n' ∉ generated.text ∧
      ∀ digits, Probe.lineDigits? generated.text = some digits → digits = ofNat line := by
  cases h with
  | empty => simp
  | probe reports =>
    rw [List.forall_mem_singleton]
    exact ⟨reports.oneLine, fun digits found => Option.some.inj (found.symm.trans reports.digits)⟩
  | probed code reports =>
    rw [List.forall_mem_cons, List.forall_mem_singleton]
    refine ⟨⟨code.oneLine, fun digits found => ?_⟩,
      reports.oneLine, fun digits found => Option.some.inj (found.symm.trans reports.digits)⟩
    rw [code.silent] at found
    cases found

theorem Paragraphs.forall_mem (h : Paragraphs bound lines) :
    ∀ generated ∈ lines, '\n' ∉ generated.text ∧
      ∀ digits, Probe.lineDigits? generated.text = some digits → ∃ line < bound, digits = ofNat line := by
  induction h with
  | nil => simp
  | append within first _ ih =>
    rw [List.forall_mem_append]
    exact ⟨fun generated mem => ⟨(first.forall_mem generated mem).1,
      fun digits found => ⟨_, within, (first.forall_mem generated mem).2 digits found⟩⟩, ih⟩

/-! ## Rebuilding entries -/

namespace LineMap

theorem depth_of_starts (h : Starts text) : depth text = 0 := by
  obtain ⟨c, rest, rfl, notBlank⟩ := h
  simp [depth, leadingBlanks, notBlank]

theorem trim_ne_nil_of_starts (h : Starts text) : trim text ≠ [] := by
  obtain ⟨c, rest, rfl, notBlank⟩ := h
  intro empty
  rw [trim_eq_nil_iff.1 empty c List.mem_cons_self] at notBlank
  cases notBlank

theorem probeTarget_of_reportsOn (h : ReportsOn line text) (found : probeTarget text = .ok target) :
    target = some line := by
  rw [probeTarget, h.digits] at found
  obtain ⟨number, read, rfl⟩ := map_ok_iff.1 found
  rw [(readDigits_ok_iff.1 read).2, digitsValue_ofNat]

theorem reportingProbe_of_ownLine (h : OwnLine own) (flush : Flush probe) (rest : List Text) :
    reportingProbe own (probe :: rest) = probeTarget probe := by
  have visible := trim_ne_nil_of_starts h.starts
  have visible' := trim_ne_nil_of_starts flush.starts
  simp [reportingProbe, followingProbe, h.unclosed, visible, visible', depth_of_starts h.starts,
    depth_of_starts flush.starts]

variable {index : Nat} {entries : List (Int × Int)}

theorem rebuild_probe (reports : ReportsOn line probe) (h : rebuild current index (probe :: rest) = .ok entries) :
    ∃ later, rebuild (some line) (index + 1) rest = .ok later ∧ entries = ((index : Int), (line : Int)) :: later := by
  rw [rebuild, bind_ok_iff] at h
  obtain ⟨target, found, h⟩ := h
  cases probeTarget_of_reportsOn reports found
  obtain ⟨later, done, same⟩ := bind_ok_iff.1 h
  cases same
  exact ⟨later, done, rfl⟩

theorem rebuild_probed (code : OwnLine own) (reports : ReportsOn line probe)
    (h : rebuild current index (own :: probe :: rest) = .ok entries) :
    ∃ later, rebuild (some line) (index + 2) rest = .ok later ∧
      entries = ((index : Int), (line : Int)) :: (((index + 1 : Nat) : Int), (line : Int)) :: later := by
  rw [rebuild, bind_ok_iff] at h
  obtain ⟨target, found, h⟩ := h
  rw [probeTarget, code.silent] at found
  cases found
  obtain ⟨owner, reporting, h⟩ := bind_ok_iff.1 h
  rw [reportingProbe_of_ownLine code reports.toFlush] at reporting
  cases probeTarget_of_reportsOn reports reporting
  obtain ⟨behind, done, same⟩ := bind_ok_iff.1 h
  cases same
  obtain ⟨later, rebuilt, rfl⟩ := rebuild_probe reports done
  exact ⟨later, rebuilt, rfl⟩

theorem rebuild_append (h : rebuild current index (first ++ rest) = .ok entries) :
    ∃ current' front later, rebuild current' (index + first.length) rest = .ok later ∧ entries = front ++ later ∧
      ∀ entry ∈ front, entry.1 < ((index + first.length : Nat) : Int) := by
  induction first generalizing current index entries with
  | nil => exact ⟨current, [], entries, h, rfl, by simp⟩
  | cons line first ih =>
    rw [List.cons_append, rebuild, bind_ok_iff] at h
    obtain ⟨target, -, h⟩ := h
    have extend {current : Option Nat} {begin_ behind : List (Int × Int)}
        (done : rebuild current (index + 1) (first ++ rest) = .ok behind) (same : entries = begin_ ++ behind)
        (early : ∀ entry ∈ begin_, entry.1 = (index : Int)) :
        ∃ current' front later, rebuild current' (index + (line :: first).length) rest = .ok later ∧
          entries = front ++ later ∧ ∀ entry ∈ front, entry.1 < ((index + (line :: first).length : Nat) : Int) := by
      obtain ⟨current', front, later, rebuilt, rfl, before⟩ := ih done
      rw [List.length_cons, ← Nat.add_assoc, Nat.add_right_comm]
      refine ⟨current', begin_ ++ front, later, rebuilt, by rw [same, List.append_assoc], ?_⟩
      rw [List.forall_mem_append]
      refine ⟨fun entry mem => ?_, fun entry mem => ?_⟩
      · rw [early entry mem]
        omega
      · have := before entry mem
        omega
    cases target with
    | some target =>
      obtain ⟨behind, done, same⟩ := bind_ok_iff.1 h
      cases same
      exact extend done (show _ = [((index : Int), (target : Int))] ++ behind from rfl) (by simp)
    | none =>
      obtain ⟨owner, -, h⟩ := bind_ok_iff.1 h
      obtain ⟨behind, done, same⟩ := bind_ok_iff.1 h
      cases same
      refine extend done rfl ?_
      intro entry mem
      obtain ⟨source, -, rfl⟩ := Option.map_eq_some_iff.1 (Option.mem_toList.1 mem)
      rfl

def recorded (index : Nat) (lines : List GeneratedLine) : List (Int × Int) :=
  (lines.zipIdx index).filterMap fun entry => entry.1.origin.map fun origin => ((entry.2 : Int), origin)

theorem recorded_append (index : Nat) (first last : List GeneratedLine) :
    recorded index (first ++ last) = recorded index first ++ recorded (index + first.length) last := by
  rw [recorded, List.zipIdx_append, List.filterMap_append, Nat.add_comm index]
  rfl

theorem le_of_mem_recorded (h : entry ∈ recorded index lines) : (index : Int) ≤ entry.1 := by
  obtain ⟨⟨line, position⟩, located, found⟩ := List.mem_filterMap.1 h
  obtain ⟨origin, -, rfl⟩ := Option.map_eq_some_iff.1 found
  exact Int.ofNat_le.2 (List.le_snd_of_mem_zipIdx located)

theorem rebuild_paragraph (paragraph : Paragraph line lines)
    (h : rebuild current index (lines.map GeneratedLine.text ++ rest) = .ok entries) :
    ∃ current' later, rebuild current' (index + lines.length) rest = .ok later ∧
      entries = recorded index lines ++ later := by
  cases paragraph with
  | empty => exact ⟨current, entries, h, rfl⟩
  | probe reports =>
    obtain ⟨later, rebuilt, rfl⟩ := rebuild_probe reports h
    exact ⟨some line, later, rebuilt, rfl⟩
  | probed code reports =>
    obtain ⟨later, rebuilt, rfl⟩ := rebuild_probed code reports h
    exact ⟨some line, later, rebuilt, rfl⟩

theorem rebuild_paragraphs (paragraphs : Paragraphs bound lines)
    (h : rebuild current index (lines.map GeneratedLine.text ++ rest) = .ok entries) :
    ∃ later, entries = recorded index lines ++ later := by
  induction paragraphs generalizing current index entries with
  | nil => exact ⟨entries, rfl⟩
  | append _ first _ ih =>
    rw [List.map_append, List.append_assoc] at h
    obtain ⟨current', behind, rebuilt, rfl⟩ := rebuild_paragraph first h
    obtain ⟨later, rfl⟩ := ih rebuilt
    exact ⟨later, by rw [recorded_append, List.append_assoc]⟩

theorem get?_of_recorded {front later : List (Int × Int)} (early : ∀ entry ∈ front, entry.1 < index)
    (found : get? ⟨recorded index lines⟩ generated = some origin) :
    get? ⟨front ++ (recorded index lines ++ later)⟩ generated = some origin := by
  obtain ⟨entry, located, rfl⟩ := Option.map_eq_some_iff.1 found
  have here : entry.1 = generated := by simpa using List.find?_some located
  have behind := le_of_mem_recorded (List.mem_of_find?_eq_some located)
  have none_ : front.find? (fun entry => entry.1 == generated) = none := by
    rw [List.find?_eq_none]
    intro other mem
    have := early other mem
    simp only [beq_iff_eq]
    omega
  rw [get?, List.find?_append, none_, Option.none_or, List.find?_append, located]
  rfl

end LineMap

namespace Instrument

open Construct

/-! ## Straight statements -/

/-- A straight statement on line `line`, at the margin. -/
structure Statement.Straight (line : Nat) (st : Statement) : Prop where
  first : st.first = line
  last : st.last = line
  level : st.level = 0
  indentation : st.indentation = []
  undirected : st.directives = .none
  unmocked : st.mock = none
  flush : Flush st.body
  trimmed : ∀ c ∈ st.body.getLast?, isBlankChar c = false
  unclosed : endsWithChar st.body ':' = false
  code : StraightCode st.body

def simpleStep? (st : Statement) : Construct → Option (Emit Step)
  | .assignment target valueStart => some (assignmentStep st target valueStart)
  | .annotated target valueStart => some (assignmentStep st target valueStart)
  | .printCall openParen closeParen => some (printStep st openParen closeParen)
  | .plain => some (plainStep st)
  | _ => none

namespace Statement.Straight

variable {st : Statement}

theorem interior (h : st.Straight line) (level : Nat) : st.interior level = [] := by
  simp [Statement.interior, h.first, h.last]

theorem limitGuard (h : st.Straight line) (level : Nat) : limitGuard st level = pure [] := by
  rw [Instrument.limitGuard, h.undirected]
  rfl

theorem dispatch_eq (construct : classify st.body = .ok kind) (same : simpleStep? st kind = some emit) :
    dispatch script st = (do count (kindOf kind); emit) := by
  rw [dispatch_of_classify construct]
  cases kind <;> cases same <;> rfl

theorem reportsOn_probe (line : Nat) (plain : Injection.Plain (.probe payload)) :
    ReportsOn line (Injection.text line (.probe payload)) := by
  refine ⟨⟨plain.starts line, plain.newline_not_mem line⟩, ?_⟩
  cases payload with
  | none =>
    show Probe.lineDigits? (Probe.bare line) = _
    rw [Reader.bare_eq]
    exact Probe.lineDigits?_tag line _
  | some payload =>
    show Probe.lineDigits? (Probe.showing line payload) = _
    rw [Reader.showing_eq, List.append_assoc]
    exact Probe.lineDigits?_tag line _

theorem lines_own (h : st.Straight line) {body : Text} (oneLine : '\n' ∉ body) (config : IndentConfig) :
    (st.own body).lines config = [⟨body, some line⟩] := by
  rw [Statement.own, h.indentation, h.first, h.last, List.nil_append, Piece.lines, codeLines, splitNewlines,
    splitAtChar_of_not_mem oneLine]
  simp

theorem lines_probe (h : st.Straight line) (payload : Option Text) (config : IndentConfig) :
    (st.inject st.level (.probe payload)).lines config = [⟨Injection.text line (.probe payload), some line⟩] := by
  rw [Statement.inject, h.level, h.first]
  rfl

theorem ownLine (h : st.Straight line) (silent : Probe.lineDigits? st.body = none) : OwnLine st.body := by
  refine ⟨h.flush, silent, ?_⟩
  have unclosed := h.unclosed
  have trimmed := h.trimmed
  rcases List.eq_nil_or_concat st.body with empty | ⟨front, c, whole⟩
  · exact absurd empty h.flush.starts.ne_nil
  · rw [whole, List.concat_eq_append] at trimmed unclosed ⊢
    rwa [trimRight_append_cons _ _ (trimmed c (List.getLast?_concat ..))]

theorem paragraph_probed (h : st.Straight line) (silent : Probe.lineDigits? st.body = none)
    (plain : Injection.Plain (.probe payload)) (config : IndentConfig) :
    Paragraph line (renderPieces config [st.own st.body, st.inject st.level (.probe payload)]) := by
  rw [renderPieces, List.flatMap_cons, List.flatMap_singleton, h.lines_own h.flush.oneLine, h.lines_probe]
  exact .probed (h.ownLine silent) (reportsOn_probe line plain)

theorem splicedArguments_eq (line : Int) (oneLine : '\n' ∉ arguments) :
    ∃ more, splicedArguments line arguments = Probe.tag line ++ more ∧ '\n' ∉ more := by
  have taken (count : Nat) : '\n' ∉ arguments.take count := fun mem => oneLine (List.mem_of_mem_take mem)
  have dropped (count : Nat) : '\n' ∉ arguments.drop count := fun mem => oneLine (List.mem_of_mem_drop mem)
  unfold splicedArguments
  dsimp only
  generalize (findChar? arguments ',').getD arguments.length = comma
  split
  · exact ⟨_, rfl, dropped comma⟩
  · split
    · refine ⟨", ".toList ++ arguments, List.append_assoc .., ?_⟩
      rw [List.mem_append, not_or]
      exact ⟨by decide, oneLine⟩
    · refine ⟨" + str(".toList ++ (arguments.take comma ++ (")".toList ++ arguments.drop comma)), ?_, ?_⟩
      · simp only [List.append_assoc]
      · simp only [List.mem_append, not_or]
        exact ⟨by decide, taken comma, by decide, dropped comma⟩

theorem newline_not_mem_tag (line : Int) : '\n' ∉ Probe.tag line := by
  rw [Probe.tag, List.mem_append, List.mem_append, not_or, not_or]
  exact ⟨⟨by decide, (plain_ofInt line).newline_not_mem⟩, by decide⟩

theorem paragraph_printed (h : st.Straight line) (construct : classify st.body = .ok (.printCall openParen closeParen))
    (direct : startsWith st.body "print(") (config : IndentConfig) :
    Paragraph line (renderPieces config [st.own (splicedBody st openParen closeParen)]) := by
  obtain ⟨rest, start⟩ := startsWith_eq_true direct
  have oneLine := h.flush.oneLine
  cases classify_ok construct with
  | printCall found =>
    obtain ⟨before, inner, close, behind, whole, rfl, rfl, chars, -⟩ := print?_shape found
    obtain ⟨rfl, -⟩ := append_paren_inj chars (by decide) (whole.symm.trans start :
      before ++ '(' :: (inner ++ close :: behind) = "print".toList ++ '(' :: rest)
    have parts := oneLine
    rw [whole] at parts
    simp only [List.mem_append, List.mem_cons, not_or] at parts
    obtain ⟨more, spliced, free⟩ := splicedArguments_eq line parts.2.2.1
    have text : splicedBody st "print".toList.length ("print".toList.length + 1 + inner.length) =
        "print".toList ++ '(' :: (Probe.tag line ++ (more ++ close :: behind)) := by
      rw [splicedBody_eq whole, h.first, spliced]
      simp
    have free : '\n' ∉ "print".toList ++ '(' :: (Probe.tag line ++ (more ++ close :: behind)) := by
      simp only [List.mem_append, List.mem_cons, not_or]
      exact ⟨parts.1, parts.2.1, newline_not_mem_tag line, free, parts.2.2.2⟩
    rw [text, renderPieces, List.flatMap_singleton, h.lines_own free]
    exact .probe ⟨⟨⟨'p', _, rfl, by decide⟩, free⟩, Probe.lineDigits?_tag line _⟩

theorem classified (h : st.Straight line) : ∃ kind, classify st.body = .ok kind ∧ kind ≠ .decorator := by
  cases h.code with
  | assigned construct | annotated construct | plain construct | printed construct => exact ⟨_, construct, by simp⟩

theorem dispatch (h : st.Straight line) (script : Script) (pass : Pass) :
    ∃ pieces pass', (Instrument.dispatch script st).run pass = .ok (⟨pieces, 0, []⟩, pass') ∧
      Paragraph line (renderPieces script.indent pieces) := by
  have ran {kind : Construct} {pieces : List Piece} (construct : classify st.body = .ok kind)
      (step : simpleStep? st kind = some (pure ⟨pieces, st.level, []⟩)) :
      (Instrument.dispatch script st).run pass = .ok (⟨pieces, 0, []⟩, pass.counted (kindOf kind)) := by
    rw [dispatch_eq construct step, h.level]
    rfl
  have assigned (target : Text) (valueStart : Nat) : assignmentStep st target valueStart =
      pure ⟨[st.own st.body, st.inject st.level (.probe (some target))], st.level, []⟩ := by
    simp only [assignmentStep, h.unmocked, h.limitGuard, h.interior, pure_bind, List.take_append_drop, List.nil_append,
      List.append_nil]
  have probed {payload : Option Text} (plain : Injection.Plain (.probe payload))
      (silent : Probe.lineDigits? st.body = none) := h.paragraph_probed silent plain script.indent
  cases h.code with
  | assigned construct =>
    refine ⟨_, _, ran construct (congrArg some (assigned _ _)), probed ?_ ?_⟩
    · rintro _ ⟨⟩
      exact plain_assigned construct (.inl rfl)
    · exact lineDigits?_of_assigned h.flush.starts construct (.inl rfl)
  | annotated construct =>
    refine ⟨_, _, ran construct (congrArg some (assigned _ _)), probed ?_ ?_⟩
    · rintro _ ⟨⟩
      exact plain_assigned construct (.inr rfl)
    · exact lineDigits?_of_assigned h.flush.starts construct (.inr rfl)
  | plain construct silent =>
    have step : plainStep st = pure ⟨[st.own st.body, st.inject st.level (.probe none)], st.level, []⟩ := by
      simp only [plainStep, h.unmocked, h.limitGuard, h.interior, pure_bind, List.nil_append, List.append_nil]
    refine ⟨_, _, ran construct (congrArg some step), probed ?_ silent⟩
    rintro _ ⟨⟩
  | printed construct direct =>
    have step (openParen closeParen : Nat) : printStep st openParen closeParen =
        pure ⟨[st.own (splicedBody st openParen closeParen)], st.level, []⟩ := by
      simp only [printStep, h.limitGuard, h.interior, pure_bind, List.nil_append, List.append_nil, splicedBody]
    exact ⟨_, _, ran construct (congrArg some (step _ _)), h.paragraph_printed construct direct script.indent⟩

theorem replaced (h : st.Straight line) (script : Script) (site : Nat)
    (stays : classify st.body = .ok .plain → ∀ openParen closeParen,
      classify (st.replaced script site).body ≠ .ok (.printCall openParen closeParen)) :
    (st.replaced script site).Straight line := by
  have closed : Closed (mockValue st.directives) := closed_mockValue_none (by rw [h.undirected]; rfl)
  have quiet : '\n' ∉ mockValue st.directives := by
    rw [h.undirected]
    decide
  have swapped := (substituteBlocking_swapped st.body st.first script.callLimit site closed).operands
  refine ⟨h.first, h.last, h.level, h.indentation, h.undirected, rfl, ⟨?_, ?_⟩, ?_, ?_, h.code.swapped swapped h.unclosed stays⟩
  · exact (substituteBlocking_enclosed ..).starts (fun _ new => new.starts) h.flush.starts
  · exact newline_not_mem_substituteBlocking _ _ _ quiet h.flush.oneLine
  · rcases swapped.getLast? (fun _ => Operand.getLast?) with same | ⟨_, d, -, last, -, closes⟩
    · rw [Statement.replaced, ← same]
      exact h.trimmed
    · intro c found
      cases found.symm.trans last
      simp only [isCloser, Bool.or_eq_true, beq_iff_eq] at closes
      rcases closes with (rfl | rfl) | rfl <;> decide
  · rw [Statement.replaced, ← swapped.endsWithChar (fun _ => Operand.getLast?) (by decide)]
    exact h.unclosed

theorem statementStep (h : st.Straight line) (script : Script) (source : LogicalStatement) (pass : Pass)
    (stays : hasBlockingCall st.body → classify st.body = .ok .plain → ∀ site openParen closeParen,
      classify (st.replaced script site).body ≠ .ok (.printCall openParen closeParen)) :
    ∃ pieces pass', (Instrument.statementStep script source st).run pass = .ok (⟨pieces, 0, []⟩, pass') ∧
      Paragraph line (renderPieces script.indent pieces) := by
  obtain ⟨kind, construct, other⟩ := h.classified
  rw [run_statementStep construct other]
  split
  · next blocking => exact (h.replaced script pass.next (stays blocking · pass.next)).dispatch script _
  · exact h.dispatch script pass

end Statement.Straight

/-! ## Straight scripts -/

end Instrument

/-- A statement on one line, at the margin and without directives, whose code is straight, opens no block, and
does not turn into a call of `print` when its blocking calls are replaced. -/
structure LogicalStatement.Straight (callLimit : Int) (source : LogicalStatement) : Prop where
  oneLine : source.before = []
  margin : leadingBlanks source.final = []
  undirected : source.directives = .none
  unclosed : endsWithChar source.code ':' = false
  code : Construct.StraightCode source.code
  stays : hasBlockingCall source.code = true → Construct.classify source.code = .ok .plain →
    ∀ site openParen closeParen, Construct.classify (substituteBlocking source.code source.first .none callLimit site).1 ≠
      .ok (.printCall openParen closeParen)

def LogicalStatement.isStraight (source : LogicalStatement) : Bool :=
  source.before = [] && leadingBlanks source.final = [] && source.directives = .none &&
    !endsWithChar source.code ':' && Construct.isStraight source.code &&
    (Construct.firstWord source.code ≠ "print" || Construct.classify source.code ≠ .ok .plain)

theorem LogicalStatement.straight_of_isStraight (callLimit : Int) {source : LogicalStatement} (h : source.isStraight) :
    source.Straight callLimit := by
  simp only [isStraight, Bool.and_eq_true, Bool.or_eq_true, Bool.not_eq_true', decide_eq_true_eq] at h
  obtain ⟨⟨⟨⟨⟨oneLine, margin⟩, undirected⟩, unclosed⟩, code⟩, word⟩ := h
  refine ⟨oneLine, margin, undirected, unclosed, Construct.straightCode_iff.2 code, ?_⟩
  intro _ plain site openParen closeParen construct
  have closed : Closed (mockValue .none) := closed_mockValue_none rfl
  have swapped := (substituteBlocking_swapped source.code source.first callLimit site closed).operands
  rcases word with other | other
  · exact other (Construct.firstWord_of_printCall_swapped swapped construct)
  · exact other plain

namespace Instrument

variable {script : Script}

theorem code_oneLine (single : (assemble cursor line rest).before = []) :
    (assemble cursor line rest).final = line ∧ (assemble cursor line rest).last = cursor ∧
      ∃ part, (assemble cursor line rest).code = trimRight part ∧ part ⊆ line := by
  have final : (assemble cursor line rest).final = line := by
    rcases assemble_cases cursor line rest with alone | ⟨more, several⟩
    · rw [alone]
    · rw [several] at single
      cases single
  refine ⟨final, by rw [last_assemble, single]; simp, (assemble cursor line rest).finalParts.1, ?_, ?_⟩
  · rw [LogicalStatement.code, single]
    rfl
  · rcases finalParts_cases (assemble cursor line rest) with whole | ⟨index, -, cut⟩
    · rw [whole, final]
      exact fun _ mem => mem
    · rw [cut, final]
      exact List.take_subset index line

theorem body_of_straight (visible : isBlankLine line = false)
    (straight : (assemble cursor line rest).Straight script.callLimit) (after : List Text) :
    (statementOf script (assemble cursor line rest) line after).body = (assemble cursor line rest).code := by
  have margin : leadingBlanks line = [] := (code_oneLine straight.oneLine).1 ▸ straight.margin
  rw [body_statementOf script cursor rest after visible, ← leadingBlanks_append_body_assemble cursor rest visible, margin]
  rfl

theorem straight_statementOf (nonneg : 0 ≤ cursor) (visible : isBlankLine line = false) (free : '\n' ∉ line)
    (straight : (assemble cursor line rest).Straight script.callLimit) (after : List Text) :
    (statementOf script (assemble cursor line rest) line after).Straight cursor.toNat := by
  obtain ⟨final, last, part, code, within⟩ := code_oneLine straight.oneLine
  have margin : leadingBlanks line = [] := final ▸ straight.margin
  have body := body_of_straight visible straight after
  have first : ((cursor.toNat : Nat) : Int) = cursor := Int.toNat_of_nonneg nonneg
  refine ⟨?_, ?_, measure_of_visible visible margin, margin, straight.undirected, ?_, ⟨?_, ?_⟩, ?_, ?_, ?_⟩
  · rw [first]
    exact first_assembleFrom ..
  · rw [first]
    exact last
  · exact congrArg Directives.mock straight.undirected
  · rw [body_statementOf script cursor rest after visible]
    exact starts_body_assemble cursor rest visible
  · rw [body, code]
    exact fun mem => free (within (trimRight_subset part mem))
  · rw [body, code]
    exact fun c => isBlankChar_of_getLast?_trimRight
  · rw [body]
    exact straight.unclosed
  · rw [body]
    exact straight.code

theorem paragraph_blank (script : Script) (nonneg : 0 ≤ cursor) (after : List Text) :
    Paragraph cursor.toNat (renderPieces script.indent (blankPieces script cursor 0 0 after)) := by
  have first : ((cursor.toNat : Nat) : Int) = cursor := Int.toNat_of_nonneg nonneg
  have level : blankLevel? script cursor 0 0 after = none ∨ blankLevel? script cursor 0 0 after = some 0 := by
    unfold blankLevel?
    split
    · exact .inl rfl
    · split
      · exact .inr rfl
      · dsimp only
        split
        · rw [if_pos (Nat.zero_le _)]
          exact .inl rfl
        · exact .inr (by rw [Nat.zero_min])
  rw [blankPieces]
  rcases level with unreported | reported
  · rw [unreported]
    exact .empty
  · rw [reported]
    have lines : renderPieces script.indent ((some 0).toList.map fun level => .injected level (.probe none) cursor) =
        [⟨Injection.text cursor.toNat (.probe none), some (cursor.toNat : Int)⟩] := by
      rw [first]
      rfl
    rw [lines]
    exact .probe (Statement.Straight.reportsOn_probe _ (by rintro _ ⟨⟩))

theorem turn_straight (unhoisted : script.hoisted = []) (nonneg : 0 ≤ cursor) (free : '\n' ∉ line)
    (straight : isBlankLine line = false → (assemble cursor line rest).Straight script.callLimit) (pass : Pass) :
    ∃ taken pass', (turn script 0 0 cursor line rest).run pass = .ok (taken, pass') ∧ taken.level = 0 ∧
      taken.prologue = [] ∧ taken.next = cursor + 1 ∧ taken.behind = rest ∧
      Paragraph cursor.toNat (renderPieces script.indent taken.pieces) := by
  rw [turn, if_neg (by simp [unhoisted])]
  split
  · exact ⟨_, pass, rfl, rfl, rfl, rfl, rfl, paragraph_blank script nonneg rest⟩
  · next notBlank =>
    have visible : isBlankLine line = false := by simpa using notBlank
    have straight := straight visible
    have last : (assemble cursor line rest).last = cursor := (code_oneLine straight.oneLine).2.1
    have all : behind (assemble cursor line rest) rest = rest := by
      rw [behind, extent_assemble, straight.oneLine]
      rfl
    have found : statementIn script.lines cursor line rest = .ok (assemble cursor line rest) :=
      statementIn_of_nonneg nonneg ..
    have body := body_of_straight visible straight (behind (assemble cursor line rest) rest)
    have ready := straight_statementOf nonneg visible free straight (behind (assemble cursor line rest) rest)
    obtain ⟨pieces, pass', ran, paragraph⟩ := ready.statementStep script (assemble cursor line rest) pass (by
      simp only [Statement.replaced, body, ready.undirected]
      exact straight.stays)
    obtain ⟨kind, construct, -⟩ := ready.classified
    have unmocked : (mockedDef? (statementOf script (assemble cursor line rest) line
        (behind (assemble cursor line rest) rest))).run pass = .ok (none, pass) := by
      rw [mockedDef?, classified, construct, ready.unmocked]
      cases kind <;> rfl
    refine ⟨_, pass', run_bind_ok.2 ⟨_, pass, ?_, run_bind_ok.2 ⟨_, pass, unmocked, run_bind_ok.2 ⟨_, pass', ran, rfl⟩⟩⟩,
      rfl, rfl, congrArg (· + 1) last, all, paragraph⟩
    rw [nextStatement, found]
    rfl

theorem range_paragraphs {lines : List Text} (unhoisted : script.hoisted = [])
    (here : LinesFrom script.lines cursor lines) (free : ∀ line ∈ lines, '\n' ∉ line)
    (straight : ∀ source ∈ statementsFrom script.lines cursor lines, source.Straight script.callLimit) (pass : Pass) :
    ∃ pieces pass', (range script 0 0 [] cursor lines).run pass = .ok (pieces, pass') ∧
      Paragraphs script.lines.length (renderPieces script.indent pieces) := by
  induction lines generalizing cursor pass with
  | nil =>
    rw [range]
    exact ⟨[], pass, rfl, .nil⟩
  | cons line rest ih =>
    rw [List.forall_mem_cons] at free
    have visible (h : isBlankLine line = false) : (assemble cursor line rest).Straight script.callLimit := by
      rw [statementsFrom_visible here h] at straight
      exact straight _ List.mem_cons_self
    have later : ∀ source ∈ statementsFrom script.lines (cursor + 1) rest, source.Straight script.callLimit := by
      cases blank : isBlankLine line with
      | true =>
        rw [statementsFrom_blank blank] at straight
        exact straight
      | false =>
        have single := (visible blank).oneLine
        rw [statementsFrom_visible here blank, (code_oneLine single).2.1, extent_assemble, single] at straight
        exact fun source mem => straight source (List.mem_cons_of_mem _ mem)
    have within : cursor.toNat < script.lines.length := by
      have length := congrArg List.length here.here
      rw [List.length_drop, List.length_cons] at length
      omega
    obtain ⟨taken, between, turned, level, prologue, next, behind, paragraph⟩ :=
      turn_straight unhoisted here.nonneg free.1 visible pass
    obtain ⟨pieces, pass', ran, paragraphs⟩ := ih here.next free.2 later between
    have placed (documents : Bool) (pieces : List Piece) : placePrologue documents [] pieces = pieces := by
      cases documents <;> simp [placePrologue]
    refine ⟨taken.pieces ++ pieces, pass', ?_, ?_⟩
    · rw [range_cons, run_bind_ok]
      refine ⟨taken, between, turned, run_bind_ok.2 ⟨pieces, pass', ?_, ?_⟩⟩
      · rw [level, prologue, next, behind]
        exact ran
      · rw [placed]
        rfl
    · rw [renderPieces, List.flatMap_append]
      exact .append within paragraph paragraphs


/-! ## Both maps of a program -/

theorem lineMap_eq_recorded (unhoisted : program.future = []) :
    program.lineMap = ⟨LineMap.recorded Probe.preamble.length program.body⟩ := by
  have support (index : Nat) (lines : List Text) :
      LineMap.recorded index (lines.map fun text => ⟨text, none⟩) = [] := by
    induction lines generalizing index with
    | nil => rfl
    | cons line lines ih => exact ih (index + 1)
  have whole : program.lineMap = ⟨LineMap.recorded 0 program.lines⟩ := rfl
  rw [whole, Program.lines, unhoisted, List.nil_append, LineMap.recorded_append, support, List.length_map, Nat.zero_add]
  rfl

theorem lineDigits?_literal (h : Probe.lineDigits? chars = none) :
    Probe.lineDigits? (String.ofList chars).toList = none := by
  rwa [String.toList_ofList]

theorem lineDigits?_preamble : ∀ text ∈ Probe.preamble, Probe.lineDigits? text = none := by
  unfold Probe.preamble
  simp only [List.forall_mem_map, List.forall_mem_cons]
  repeat' apply And.intro
  all_goals first | exact lineDigits?_literal (by decide) | simp

theorem splitNewlines_of_paragraphs (unhoisted : program.future = []) (paragraphs : Paragraphs bound program.body) :
    splitNewlines program.text = Probe.preamble ++ (program.body.map GeneratedLine.text ++ [[]]) := by
  have texts : program.lines.map GeneratedLine.text = Probe.preamble ++ program.body.map GeneratedLine.text := by
    rw [Program.lines, unhoisted, List.nil_append, List.map_append, List.map_map]
    exact congrArg (· ++ _) (List.map_id _)
  have free : ∀ text ∈ Probe.preamble ++ program.body.map GeneratedLine.text, '\n' ∉ text := by
    rw [List.forall_mem_append, List.forall_mem_map]
    exact ⟨newline_not_mem_preamble, fun line mem => (paragraphs.forall_mem line mem).1⟩
  rw [splitNewlines_text, texts, flatMap_splitNewlines free, List.append_assoc]

theorem ofProgramText_of_paragraphs (unhoisted : program.future = []) (paragraphs : Paragraphs bound program.body)
    (short : bound ≤ 10 ^ digitLimit) : ∃ map, LineMap.ofProgramText program.text = .ok map := by
  have readable : ∀ line ∈ splitNewlines program.text, ProbeReadable line := by
    rw [splitNewlines_of_paragraphs unhoisted paragraphs]
    intro line mem digits found
    rcases List.mem_append.1 mem with support | mem
    · rw [lineDigits?_preamble line support] at found
      cases found
    · rcases List.mem_append.1 mem with inBody | last
      · obtain ⟨generated, located, rfl⟩ := List.mem_map.1 inBody
        obtain ⟨number, within, rfl⟩ := (paragraphs.forall_mem generated located).2 digits found
        exact length_ofNat_le_iff.2 (Nat.lt_of_lt_of_le within short)
      · rw [List.mem_singleton.1 last] at found
        cases found
  obtain ⟨entries, rebuilt⟩ := LineMap.rebuild_ok_iff.2 readable
  exact ⟨⟨entries⟩, bind_ok_iff.2 ⟨entries, rebuilt, rfl⟩⟩

theorem get?_of_paragraphs (unhoisted : program.future = []) (paragraphs : Paragraphs bound program.body)
    (rebuilt : LineMap.ofProgramText program.text = .ok map)
    (found : program.lineMap.get? generated = some origin) : map.get? generated = some origin := by
  obtain ⟨entries, read, same⟩ := bind_ok_iff.1 rebuilt
  cases same
  rw [splitNewlines_of_paragraphs unhoisted paragraphs] at read
  obtain ⟨current, front, behind, body, rfl, early⟩ := LineMap.rebuild_append read
  obtain ⟨later, rfl⟩ := LineMap.rebuild_paragraphs paragraphs body
  rw [lineMap_eq_recorded unhoisted] at found
  rw [Nat.zero_add] at early ⊢
  exact LineMap.get?_of_recorded early found

/-- The map that is rebuilt from the text of a straight script's program agrees with the recorded one. -/
theorem rebuilt_agrees {source : Text} {callLimit : Int} (indent : IndentConfig)
    (unhoisted : futureImports (splitLines source) = [])
    (straight : ∀ statement ∈ logicalStatements (splitLines source), statement.Straight callLimit) :
    ∃ program, instrument source indent callLimit = .ok program ∧
      ((splitLines source).length ≤ 10 ^ digitLimit → ∃ map, LineMap.ofProgramText program.text = .ok map) ∧
      ∀ map, LineMap.ofProgramText program.text = .ok map → ∀ generated origin,
        program.lineMap.get? generated = some origin → map.get? generated = some origin := by
  obtain ⟨pieces, pass, ran, paragraphs⟩ := @range_paragraphs ⟨splitLines source, indent, callLimit, []⟩ 0 _ rfl
    (linesFrom_start _) (fun _ => newline_not_mem_splitLines) straight .start
  refine ⟨⟨splitLines source, [], renderPieces indent pieces⟩, ?_, ofProgramText_of_paragraphs rfl paragraphs,
    fun map rebuilt generated origin => get?_of_paragraphs rfl paragraphs rebuilt⟩
  have whole : wholeScript ⟨splitLines source, indent, callLimit, []⟩ = .ok (pieces, pass) := ran
  rw [instrument, unhoisted, List.map_nil, whole]
  rfl

def straightSource : Text :=
  "x = input()\n\nf(input())  # (\nprint(x, input())\ny: int = 2"

theorem rebuilt_agrees_sample :
    futureImports (splitLines straightSource) = [] ∧
      (∀ statement ∈ logicalStatements (splitLines straightSource), statement.Straight 100) ∧
      ∃ program map, instrument straightSource .standard 100 = .ok program ∧
        LineMap.ofProgramText program.text = .ok map ∧ ∀ generated origin,
          program.lineMap.get? generated = some origin → map.get? generated = some origin := by
  have unhoisted : futureImports (splitLines straightSource) = [] := by decide +kernel
  have tested : ∀ statement ∈ logicalStatements (splitLines straightSource), statement.isStraight = true := by
    decide +kernel
  have straight : ∀ statement ∈ logicalStatements (splitLines straightSource), statement.Straight 100 :=
    fun statement mem => LogicalStatement.straight_of_isStraight 100 (tested statement mem)
  obtain ⟨program, done, reads, agrees⟩ := rebuilt_agrees .standard unhoisted straight
  obtain ⟨map, rebuilt⟩ := reads (Nat.le_trans (show _ ≤ 10 ^ 1 by decide +kernel)
    (Nat.pow_le_pow_right (by decide) (by decide)))
  exact ⟨unhoisted, straight, program, map, done, rebuilt, agrees map rebuilt⟩

/-- A statement that turns into a call of `print` is no probe, for there is white space before its parenthesis. -/
theorem rebuilt_differs_on_printed_input :
    ∃ program map, instrument "print input()" .standard 100 = .ok program ∧
      LineMap.ofProgramText program.text = .ok map ∧ program.lineMap.get? 34 = some 0 ∧ map.get? 34 = none := by
  have differs : ((instrument "print input()" .standard 100).toOption.any fun program =>
      program.lineMap.get? 34 = some 0 ∧ (LineMap.ofProgramText program.text).toOption.any fun map =>
        map.get? 34 = none) = true := by
    decide +kernel
  cases run : instrument "print input()" .standard 100 with
  | error cause =>
    rw [run] at differs
    cases differs
  | ok program =>
    rw [run] at differs
    obtain ⟨recorded, differs⟩ := of_decide_eq_true differs
    cases rebuilt : LineMap.ofProgramText program.text with
    | error cause =>
      rw [rebuilt] at differs
      cases differs
    | ok map =>
      rw [rebuilt] at differs
      exact ⟨program, map, rfl, rebuilt, recorded, of_decide_eq_true differs⟩

end Instrument

end LineProbe
