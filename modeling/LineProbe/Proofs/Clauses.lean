import LineProbe.Proofs.Documented

/-!
# Clauses

A clause continues a compound statement: nothing may stand between the block before it and its header.
-/

namespace LineProbe.Instrument

open Text Construct

variable {pass : Pass}

structure RemainsCompound (callLimit : Int) (source : LogicalStatement) : Prop where
  compound : IsCompound source.body
  stays : ∀ site kind, classify (source.emitted callLimit site) = .ok kind → IsCompound (source.emitted callLimit site)

theorem RemainsCompound.of_closed (compound : IsCompound source.body) (closed : Closed (mockValue source.directives)) :
    RemainsCompound callLimit source :=
  ⟨compound, fun _ _ found => compound.emitted closed found⟩

theorem RemainsCompound.not_decorator (remains : RemainsCompound callLimit source) :
    classify source.body ≠ .ok .decorator := by
  intro construct
  obtain ⟨kind, found, opens | ⟨colon, rfl⟩⟩ := remains.compound
  · cases construct.symm.trans found
    cases opens
  · cases construct.symm.trans found

/-! ## Clauses as they are dispatched -/

theorem of_mem_clauseKeywords (mem : word ∈ clauseKeywords) :
    isProbed word = false ∧ word ≠ "while" ∧ word ≠ "if" ∧ word ∉ (["for", "def", "async"] : List Text) ∧
      word ∉ operandWords := by
  have all : ∀ word ∈ clauseKeywords, isProbed word = false ∧ word ≠ "while" ∧ word ≠ "if" ∧
      word ∉ (["for", "def", "async"] : List Text) ∧ word ∉ operandWords := by decide
  exact all word mem

theorem inlineConstruct_of_word (found : classify code = .ok kind)
    (other : firstWord code ∉ (["for", "def", "async"] : List Text)) :
    inlineConstruct code kind = .blockHeader (firstWord code) := by
  unfold inlineConstruct
  split
  · next opens =>
    cases classify_ok found with
    | blockHeader => rfl
    | forHeader loop =>
      obtain ⟨_, _, shape, -, -⟩ := forHeader?_iff_shape.1 loop
      rw [shape.firstWord] at other
      exact absurd List.mem_cons_self other
    | defHeader _ parts _ => exact absurd (List.mem_cons_of_mem _ (firstWord_of_defParts? parts)) other
    | _ => cases opens
  · rfl

theorem firstWord_of_blockHeader (found : classify code = .ok (.blockHeader keyword)) : firstWord code = keyword := by
  cases classify_ok found
  rfl

theorem Heads.of_clause (found : classify st.body = .ok kind)
    (h : Heads script st (inlineConstruct st.body kind) pass parts pass') (word : firstWord st.body ∈ clauseKeywords) :
    parts.before = [] ∧ parts.header = [st.heading] := by
  obtain ⟨unprobed, notWhile, notIf, other, -⟩ := of_mem_clauseKeywords word
  rw [inlineConstruct_of_word found other] at h
  cases h with
  | block marked =>
    rw [marked.eq_nil notWhile notIf, unprobed]
    exact ⟨rfl, rfl⟩

theorem Dispatched.clause (h : Dispatched script st pass step pass') (compound : IsCompound st.body)
    (word : firstWord st.body ∈ clauseKeywords) :
    ∃ back, step.pieces = .header (st.indentation ++ headCode st.body) st.first st.last :: back := by
  obtain ⟨head, kind, _, _, parts, back, isHead, found, heads, whole⟩ := h.of_compound compound
  have word : firstWord head.body ∈ clauseKeywords := by rwa [isHead.body, firstWord_headCode]
  obtain ⟨before, header⟩ := heads.of_clause found word
  rw [whole, before, header, isHead.heading]
  exact ⟨back, rfl⟩

/-- The header of a clause, with its blocking calls replaced. -/
def clauseHeader (script : Script) (clause : LogicalStatement) (site : Nat) : Piece :=
  .header (leadingBlanks clause.opening ++ headCode (clause.emitted script.callLimit site)) clause.first clause.last

theorem Leg.Stands.clause {leg : Leg script} {clause : LogicalStatement} (stands : leg.Stands line rest)
    (visits : leg.visits = ⟨clause, none⟩ :: later)
    (word : firstWord clause.body ∈ clauseKeywords) (remains : RemainsCompound script.callLimit clause) :
    ∃ site back, leg.pieces = leg.pending ++ clauseHeader script clause site :: back := by
  obtain ⟨next, step, takes, -⟩ := stands.takes visits
  obtain rfl := takes.found
  obtain ⟨_, stepped⟩ := takes.stepped
  obtain ⟨site, between, dispatched⟩ := stepped.emitted stands.visible remains.not_decorator
  obtain ⟨kind, found⟩ := dispatched.classified
  have same := firstWord_emitted_of_not_operand script.callLimit site (of_mem_clauseKeywords word).2.2.2.2
  obtain ⟨back, pieces⟩ := dispatched.clause (remains.stays site kind found) (same.symm ▸ word)
  have unquoted := isDocstring_eq_false stands.visible word (by decide)
  refine ⟨site, back ++ next.pieces, ?_⟩
  rw [takes.pieces, unquoted, placePrologue, pieces]
  simp only [Bool.false_eq_true, if_false, List.append_assoc, List.cons_append]
  rfl

/-! ## The first case of a match -/

/-- The header of a `match` and the `case` behind it. -/
structure OpensMatch (script : Script) (header clause : LogicalStatement) : Prop where
  construct : classify header.body = .ok (.blockHeader "match")
  stays : header.StaysHeader script.callLimit
  word : firstWord clause.body = "case"
  remains : RemainsCompound script.callLimit clause
  deeper : script.indent.measure header.opening < script.indent.measure clause.opening
  blank : BlankBetween script header clause

theorem OpensMatch.isHeader (opens : OpensMatch script header clause) : header.isHeader :=
  LogicalStatement.isHeader_iff.2 ⟨_, opens.construct, rfl⟩

theorem OpensMatch.firstWord_header (opens : OpensMatch script header clause) :
    firstWord header.body = "match" :=
  firstWord_of_blockHeader opens.construct

/-- What opens the block of a `match`: its guard and the reports on its further lines. -/
def matchPrologue (script : Script) (header : LogicalStatement) (number : Nat) : List Piece :=
  limitGuards header.directives.limit (hasBlockingCall header.body) (script.indent.measure header.opening + 1)
      header.first number ++
    interiorReports (script.indent.measure header.opening + 1) header

theorem Dispatched.opensMatch {header clause : LogicalStatement}
    (h : Dispatched script (emittedStatement script header after site) pass step pass')
    (opens : OpensMatch script header clause)
    (body : hasBody script.indent after (script.indent.measure header.opening)) :
    ∃ front number, step.prologue = matchPrologue script header number ∧
      step.pieces = front ++ [.header (leadingBlanks header.opening ++ header.emitted script.callLimit site) header.first
        header.last] ∧
      step.nextLevel = script.indent.measure header.opening + 1 := by
  obtain ⟨kind, found⟩ := h.classified
  have opens' := opensBlock_emitted opens.isHeader opens.stays found
  have body' : hasBody script.indent (emittedStatement script header after site).after
      (emittedStatement script header after site).level := body
  have word : firstWord (emittedStatement script header after site).body = "match" := by
    rw [← opens.firstWord_header]
    apply firstWord_emitted_of_not_operand
    rw [opens.firstWord_header]
    decide
  obtain ⟨parts, heads, rfl⟩ := h.of_opensBlock found opens'
  have same : inlineConstruct (emittedStatement script header after site).body kind = kind := if_pos opens'
  rw [← same, inlineConstruct_of_word found (by rw [word]; decide), word] at heads
  rw [if_pos body']
  cases heads with
  | block marked guarded =>
    rw [guarded.eq_limitGuards]
    exact ⟨_, _, rfl, rfl, rfl⟩

theorem Leg.Stands.opensMatch {leg : Leg script} {header clause : LogicalStatement} (stands : leg.Stands line rest)
    (visits : leg.visits = ⟨header, none⟩ :: ⟨clause, none⟩ :: later) (opens : OpensMatch script header clause) :
    ∃ (next : Leg script) (site number : Nat) (front : List Piece), next.visits = ⟨clause, none⟩ :: later ∧
      next.lines = behind header rest ∧ next.cursor = header.last + 1 ∧
      next.level = script.indent.measure header.opening + 1 ∧ next.pending = matchPrologue script header number ∧
      leg.pieces = front ++ .header (leadingBlanks header.opening ++ header.emitted script.callLimit site) header.first
        header.last :: next.pieces := by
  obtain ⟨next, step, takes, visits'⟩ := stands.takes visits
  obtain rfl := takes.found
  obtain ⟨_, stepped⟩ := takes.stepped
  have other : classify (assemble leg.cursor line rest).body ≠ .ok .decorator := by
    rw [opens.construct]
    simp
  obtain ⟨site, between, dispatched⟩ := stepped.emitted stands.visible other
  have body := hasBody_of_deeper opens.blank opens.deeper takes.cursor visits'
  rw [takes.lines] at body
  obtain ⟨front, number, prologue, pieces, level⟩ := dispatched.opensMatch opens body
  have unquoted := isDocstring_eq_false stands.visible (List.mem_singleton.2 opens.firstWord_header) (by decide)
  refine ⟨next, site, number, leg.pending ++ front, visits', takes.lines, takes.cursor, takes.level.trans level,
    takes.pending.trans prologue, ?_⟩
  rw [takes.pieces, unquoted, placePrologue, pieces]
  simp

/-- The reports on the blank lines between the header of a `match` and a `case` that is not seen to be one. -/
def unseenReports (script : Script) (header clause : LogicalStatement) : List Piece :=
  if isClauseLine clause.opening || header.endsAsDecorator then []
  else blankProbes script (script.indent.measure header.opening + 1) (header.last + 1)
    (clause.first - header.last - 1).toNat

theorem gap_eq_unseenReports (deeper : script.indent.measure header.opening < script.indent.measure clause.opening) :
    Leg.gap script (script.indent.measure header.opening + 1) header clause = unseenReports script header clause := by
  rw [Leg.gap, unseenReports, reportLevel?, if_pos (Nat.succ_le_of_lt deeper), Nat.min_eq_left (Nat.succ_le_of_lt deeper)]
  cases isClauseLine clause.opening <;> cases header.endsAsDecorator <;> rfl

/-- What stands between the header of a `match` and its first `case`: the guard of the header, the reports on its further
lines, and the reports on the blank lines before a `case` whose first line does not show that it is one. -/
theorem match_opened {pieces : List Piece} {pass : Pass} {earlier later : List Visit} {header clause : LogicalStatement}
    (flush : script.Flush) (done : wholeScript script = .ok (pieces, pass))
    (visited : visits script 0 script.lines = earlier ++ ⟨header, none⟩ :: ⟨clause, none⟩ :: later)
    (opens : OpensMatch script header clause) :
    ∃ front site number site' back,
      pieces = front ++ .header (leadingBlanks header.opening ++ header.emitted script.callLimit site) header.first
          header.last ::
        (matchPrologue script header number ++ unseenReports script header clause ++
          clauseHeader script clause site' :: back) := by
  have whole : (Leg.ofScript done).visits = earlier ++ ⟨header, none⟩ :: ⟨clause, none⟩ :: later := visited
  have word : firstWord clause.body ∈ clauseKeywords := by
    rw [opens.word]
    decide
  cases (Leg.ofScript done).joins whole with
  | @together part _ rest _ stands visits inside =>
    obtain ⟨next, site, number, front, visits', lines, cursor, level, pending, opened⟩ := stands.opensMatch visits opens
    have cut : behind header rest = next.lines ++ [] := by rw [lines, List.append_nil]
    obtain ⟨other, _, _, there, visits'', comes⟩ :=
      Leg.come stands (stands.found visits) cut cursor visits' opens.blank
    obtain ⟨site', behind, stated⟩ := there.clause visits'' word opens.remains
    obtain ⟨ahead, back, whole⟩ := inside
    refine ⟨ahead ++ front, site, number, site', behind ++ back, whole.symm.trans ?_⟩
    rw [opened, comes.pieces, stated, comes.pending, level, pending, gap_eq_unseenReports opens.deeper]
    by_cases near : header.last + 1 = clause.first
    · have none_ : unseenReports script header clause = [] := by
        rw [← gap_eq_unseenReports opens.deeper, Leg.gap_of_near _ near]
      rw [if_pos near, if_pos near, none_]
      simp
    · rw [if_neg near, if_neg near]
      simp
  | apart part other front between back stands visits others whole called ends behind level outside deep =>
    refine absurd others (Leg.not_outside opens.blank opens.deeper behind fun line mem => ?_)
    obtain ⟨visible, shallow⟩ := outside line mem
    exact ⟨visible, Nat.le_of_lt (Nat.lt_of_le_of_lt shallow (deep flush))⟩

def matchScript : Script :=
  .ofSource "match (x,\n  y):  # limit(2)\n\n    case (1,\n      2): a".toList .standard 100

def matchHeader : LogicalStatement :=
  ⟨0, 1, ["match (x,".toList], "  y):  # limit(2)".toList, .closed, .closed⟩

def firstCase : LogicalStatement :=
  ⟨3, 4, ["    case (1,".toList], "      2): a".toList, .closed, .closed⟩

theorem match_opened_sample :
    ∃ pieces pass front site number site' back, wholeScript matchScript = .ok (pieces, pass) ∧
      pieces = front ++ .header (matchHeader.emitted 100 site) 0 1 ::
        ([.injected 1 (.limitGuard number 2) 0, .injected 1 (.probe none) 1] ++ [.injected 1 (.probe none) 2] ++
          clauseHeader matchScript firstCase site' :: back) := by
  have flush : matchScript.Flush := Script.flush_ofSource _ _ _
  have runs : (wholeScript matchScript).isOk = true := by decide +kernel
  obtain ⟨⟨pieces, pass⟩, done⟩ := exists_ok runs
  have visited : visits matchScript 0 matchScript.lines = [] ++ ⟨matchHeader, none⟩ :: ⟨firstCase, none⟩ :: [] := by
    decide +kernel
  have opens : OpensMatch matchScript matchHeader firstCase := by
    refine ⟨by decide +kernel, ?_, by decide +kernel, ?_, by decide +kernel, ?_⟩
    · intro _ blocking
      exact absurd blocking (by decide +kernel)
    · exact .of_closed ⟨.inlineCompound 17, by decide +kernel, .inr ⟨_, rfl⟩⟩ (closed_mockValue_none (by decide +kernel))
    · intro position above below
      obtain rfl : position = 2 := by
        change 1 < position at above
        change position < 3 at below
        omega
      decide +kernel
  obtain ⟨front, site, number, site', back, whole⟩ := match_opened flush done visited opens
  have limit : matchHeader.directives.limit = some 2 := by decide +kernel
  have free : hasBlockingCall matchHeader.body = false := by decide +kernel
  have prologue : matchPrologue matchScript matchHeader number =
      [.injected 1 (.limitGuard number 2) 0, .injected 1 (.probe none) 1] := by
    rw [matchPrologue, limit, free]
    rfl
  have unseen : unseenReports matchScript matchHeader firstCase = [.injected 1 (.probe none) 2] := by decide +kernel
  rw [prologue, unseen] at whole
  exact ⟨pieces, pass, front, site, number, site', back, done, whole⟩

/-- What is put between the header of a `match` and its first `case`: the guard of the header, a report on its second
line, and a report on the blank line before a `case` whose pattern goes on behind its first line. -/
theorem cases_parted :
    instrumentedTexts "match x:  # limit(3)\n    case 1: a" =
        some (["print(\"0:\")", "match x:", "    _clem_guard(\"s1\", 0, 3)", "    case 1:", "        a",
          "        print(\"1:\")"].map String.toList) ∧
      instrumentedTexts "match (x,\n  y):\n    case 1: a" =
        some (["print(\"0:\")", "match (x,", "  y):", "    print(\"1:\")", "    case 1:", "        a",
          "        print(\"2:\")"].map String.toList) ∧
      instrumentedTexts "match x:\n\n    case (1,\n      2): a" =
        some (["print(\"0:\")", "match x:", "    print(\"1:\")", "    case (1,", "      2):", "        print(\"3:\")",
          "        a", "        print(\"2:\")"].map String.toList) := by
  refine ⟨?_, ?_, ?_⟩ <;> decide +kernel

end LineProbe.Instrument
