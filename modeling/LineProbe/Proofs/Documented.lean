import LineProbe.Proofs.Definitions

/-!
# Documented definitions

A string documents a definition only if it is the first statement of the block.
-/

namespace LineProbe.Instrument

open Text Construct

variable {pass : Pass}

def limitGuards (limit : Option Int) (guarded : Bool) (level : Nat) (first : Int) (site : Nat) : List Piece :=
  if guarded then [] else limit.toList.map fun limit => .injected level (.limitGuard site limit) first

theorem Guards.eq_limitGuards (h : Guards st level pass guards pass') :
    guards = limitGuards st.directives.limit st.guarded level st.first pass.next := by
  cases h with
  | needless needless =>
    rcases needless with none_ | guarded
    · simp [limitGuards, none_]
    · simp [limitGuards, guarded]
  | placed some_ unguarded => simp [limitGuards, some_, unguarded, Statement.inject]

def interiorReports (level : Nat) (source : LogicalStatement) : List Piece :=
  (List.range (source.last - source.first).toNat).map fun (offset : Nat) =>
    .injected level (.probe none) (source.first + 1 + offset)

/-! ## The string -/

def statedCode (script : Script) (string : LogicalStatement) (site : Nat) : Text :=
  match if hasBlockingCall string.body then none else string.directives.mock with
  | none => string.emitted script.callLimit site
  | some mock => "(" ++ mock ++ ")"

/-- What a string begins with: the pieces before its own code, and its own code. -/
inductive States (script : Script) (string : LogicalStatement) : List Piece → Piece → Prop where
  | plain {site number : Nat} (unended : endsWithChar string.body ':' = false) :
    States script string
      (limitGuards string.directives.limit (hasBlockingCall string.body) (script.indent.measure string.opening)
        string.first number)
      (.code (leadingBlanks string.opening ++ statedCode script string site) string.first string.last)
  | header {site : Nat} (ended : endsWithChar string.body ':' = true) :
    States script string [.injected (script.indent.measure string.opening) (.probe none) string.first]
      (.header (leadingBlanks string.opening ++ string.emitted script.callLimit site) string.first string.last)

theorem Heads.of_string (opens : OpensString st.body)
    (h : Heads script st (.blockHeader (firstWord st.body)) pass parts pass') :
    parts.before = [st.inject st.level (.probe none)] ∧ parts.header = [st.heading] := by
  have notBranch := opens.firstWord_not_mem ["while", "if"] (by decide)
  have probed : isProbed (firstWord st.body) := by
    simpa [isProbed] using opens.firstWord_not_mem unprobedKeywords (by decide)
  simp only [List.mem_cons, List.not_mem_nil, or_false, not_or] at notBranch
  cases h with
  | block marked =>
    rw [marked.eq_nil notBranch.1 notBranch.2, probed]
    exact ⟨rfl, rfl⟩

theorem plainBody_of_string (opens : OpensString (emittedStatement script string after site).body) :
    plainBody (emittedStatement script string after site) = statedCode script string site := by
  have other : statementKeywords.contains (firstWord (emittedStatement script string after site).body) = false := by
    simpa using opens.firstWord_not_mem statementKeywords (by decide)
  rw [plainBody, other, statedCode]
  rfl

theorem Dispatched.states {string : LogicalStatement}
    (h : Dispatched script (emittedStatement script string after site) pass step pass')
    (opens : OpensString string.body) :
    ∃ before own tail, States script string before own ∧ step.pieces = before ++ own :: tail := by
  have swapped := substituteBlocking_enclosed string.body string.first string.directives script.callLimit site
  have opens' : OpensString (emittedStatement script string after site).body := opens.swapped swapped
  have last : endsWithChar string.body ':' = endsWithChar (emittedStatement script string after site).body ':' :=
    swapped.endsWithChar (fun _ new => new.getLast?) (by decide)
  obtain ⟨kind, found⟩ := h.classified
  rcases opens'.construct found with ⟨unended, rfl⟩ | ⟨ended, rfl⟩
  · cases h with
    | plain construct _ guarded =>
      rw [guarded.eq_limitGuards, plainBody_of_string opens', List.append_assoc]
      exact ⟨_, _, _, @States.plain script string site pass.next (last.trans unended), rfl⟩
    | opened construct opens | openedEmpty construct opens =>
      cases found.symm.trans construct
      cases opens
    | assigned construct assigns =>
      cases found.symm.trans construct
      exact absurd assigns (by simp)
    | _ construct => cases found.symm.trans construct
  · obtain ⟨parts, heads, rfl⟩ := h.of_opensBlock found rfl
    obtain ⟨before, header⟩ := heads.of_string opens'
    rw [before, header]
    split
    · exact ⟨_, _, _, .header (last.trans ended), rfl⟩
    · exact ⟨_, _, _, .header (last.trans ended), rfl⟩

theorem Stepped.states {cursor : Int} {line : Text} {rest : List Text}
    (h : Stepped script (assemble cursor line rest) (statementOf script (assemble cursor line rest) line after) pass step pass')
    (visible : isBlankLine line = false) (string : isDocstring line) :
    ∃ before own tail, States script (assemble cursor line rest) before own ∧ step.pieces = before ++ own :: tail := by
  have opens := (opensString_of_isDocstring string).body cursor rest visible
  have other : classify (assemble cursor line rest).body ≠ .ok .decorator := by
    intro construct
    rcases opens.construct construct with ⟨-, plain⟩ | ⟨-, header⟩
    · cases plain
    · cases header
  obtain ⟨site, between, dispatched⟩ := h.emitted visible other
  exact dispatched.states opens

/-! ## The header -/

/-- A definition whose block begins with a string. -/
structure Documents (script : Script) (header string : LogicalStatement) : Prop where
  word : firstWord header.body ∈ definitionWords
  opens : header.isHeader = true
  stays : header.StaysHeader script.callLimit
  quoted : isDocstring string.opening = true
  deeper : script.indent.measure header.opening < script.indent.measure string.opening
  blank : BlankBetween script header string

def linesFrom (cursor : Int) (lines : List Text) : List Piece :=
  lines.zipIdx.map fun entry => .code entry.1 (cursor + (entry.2 : Int)) (cursor + (entry.2 : Int))

/-- What opens the block of a definition: the pieces before the header of the block, the header, and what is to be
placed behind it. A mocked function is there as it stands before its header comes once more under another name. -/
inductive Introduces (script : Script) (header : LogicalStatement) : Option (List Text) → List Piece → Piece →
    List Piece → Prop where
  | once {site number : Nat} :
    Introduces script header none
      (herald (script.indent.measure header.opening) header.first (header.emitted script.callLimit site))
      (.header (leadingBlanks header.opening ++ header.emitted script.callLimit site) header.first header.last)
      (parameterReports (script.indent.measure header.opening + 1) header.first (header.emitted script.callLimit site) ++
        limitGuards header.directives.limit (hasBlockingCall header.body) (script.indent.measure header.opening + 1)
          header.first number ++
        interiorReports (script.indent.measure header.opening + 1) header)
  | twice {block : List Text} {name : Text} {params : List Text} {shadow : Temp} {number : Nat}
    (construct : classify header.body = .ok (.defHeader name params)) :
    Introduces script header (some block)
      (.header header.text header.first header.last ::
          limitGuards header.directives.limit false (script.indent.measure header.opening + 1) header.first number ++
        linesFrom (header.last + 1) block)
      (.header (renameDef name shadow.name none header.text) header.first header.last)
      (parameterReports (script.indent.measure header.opening + 1) header.first header.body ++
        interiorReports (script.indent.measure header.opening + 1) header)

theorem opensBlock_emitted {header : LogicalStatement} (opens : header.isHeader) (stays : header.StaysHeader callLimit)
    (found : classify (header.emitted callLimit site) = .ok kind) : kind.opensBlock := by
  cases blocking : hasBlockingCall header.body with
  | true => exact stays opens blocking site kind found
  | false =>
    rw [LogicalStatement.emitted, substituteBlocking_of_free blocking] at found
    obtain ⟨kind', found', opens'⟩ := LogicalStatement.isHeader_iff.1 opens
    cases found.symm.trans found'
    exact opens'

theorem Dispatched.introduces (h : Dispatched script (emittedStatement script header after site) pass step pass')
    (word : firstWord header.body ∈ definitionWords) (opens : header.isHeader)
    (stays : header.StaysHeader script.callLimit)
    (body : hasBody script.indent after (script.indent.measure header.opening)) :
    ∃ lead head, Introduces script header none lead head step.prologue ∧ step.pieces = lead ++ [head] ∧
      step.nextLevel = script.indent.measure header.opening + 1 := by
  obtain ⟨kind, found⟩ := h.classified
  have opens' := opensBlock_emitted opens stays found
  have word' : firstWord (emittedStatement script header after site).body ∈ definitionWords :=
    (firstWord_emitted script.callLimit site word).symm ▸ word
  have body' : hasBody script.indent (emittedStatement script header after site).after
      (emittedStatement script header after site).level := body
  obtain ⟨parts, heads, rfl⟩ := h.of_opensBlock found opens'
  have same : inlineConstruct (emittedStatement script header after site).body kind = kind := if_pos opens'
  rw [← same] at heads
  obtain ⟨before, heading, guards, guarded, prologue⟩ := heads.of_definition found word'
  rw [if_pos body', before, heading, prologue, guarded.eq_limitGuards]
  exact ⟨_, _, .once, rfl, rfl⟩

theorem MocksDef.introduces {mock : MockedDef}
    (mocks : MocksDef (statementOf script (assemble cursor line rest) line after) mock)
    (visible : isBlankLine line = false)
    (guarded : Guards (statementOf script (assemble cursor line rest) line after) (script.indent.measure line + 1) pass
      guards pass')
    (body : hasBody script.indent block (script.indent.measure line)) :
    ∃ lead head, Introduces script (assemble cursor line rest) (some block) lead head
        (mockedPrologue (statementOf script (assemble cursor line rest) line after) mock) ∧
      ∀ inner, ∃ back, mockedPieces script.indent (assemble cursor line rest)
          (statementOf script (assemble cursor line rest) line after) block mock shadow guards inner =
        lead ++ head :: (inner ++ back) := by
  have construct := mocks.construct
  rw [body_statementOf script cursor rest after visible] at construct
  have opening : (assemble cursor line rest).opening = line := headD_lines_assemble ..
  have params : functionParams? (assemble cursor line rest).body = some mock.params := by rw [functionParams?, construct]
  have written : writtenBody script.indent (statementOf script (assemble cursor line rest) line after) block =
      linesFrom ((assemble cursor line rest).last + 1) block := by
    rw [writtenBody]
    exact if_pos body
  have introduces := @Introduces.twice script _ block _ _ shadow pass.next construct
  rw [parameterReports, params, opening] at introduces
  refine ⟨_, _, introduces, fun inner => ?_⟩
  rw [mockedPieces, written, guarded.eq_limitGuards, List.append_assoc]
  exact ⟨_, rfl⟩

/-! ## Hoisted lines -/

theorem measure_of_isFutureImport (config : IndentConfig) (h : isFutureImport line) : config.measure line = 0 := by
  simp only [isFutureImport, Bool.and_eq_true, bind, Option.isSome_bind] at h
  obtain ⟨rest, found, -⟩ := (Option.any_eq_true _ _).1 h.1
  obtain ⟨blanks, rfl, -, -⟩ := afterSpacedWord?_spec found
  exact config.measure_eq_zero (by rintro c ⟨⟩; decide)

theorem Script.flush_ofSource (source : Text) (indent : IndentConfig) (callLimit : Int) :
    (Script.ofSource source indent callLimit).Flush := by
  intro index hoisted line found
  rw [List.contains_iff_mem] at hoisted
  obtain ⟨number, mem, rfl⟩ := List.mem_map.1 hoisted
  obtain ⟨⟨text, place⟩, there, same⟩ := List.mem_filterMap.1 mem
  rw [List.mem_zipIdx_iff_getElem?] at there
  rw [Option.ite_none_right_eq_some, Option.some.injEq] at same
  obtain ⟨imports, rfl⟩ := same
  cases there.symm.trans found
  exact measure_of_isFutureImport _ imports

/-! ## The block -/

namespace Leg

variable {leg : Leg script}

theorem hasBody_of_deeper {next : Leg script} (blank : BlankBetween script source visit.source)
    (deeper : script.indent.measure source.opening < script.indent.measure visit.source.opening)
    (cursor : next.cursor = source.last + 1) (visits : next.visits = visit :: later) :
    hasBody script.indent next.lines (script.indent.measure source.opening) := by
  have code := next.nextCode?_lines visits fun position above below => blank position (by omega) below
  rw [hasBody, code]
  exact decide_eq_true deeper

theorem not_outside {next : Leg script}
    (blank : BlankBetween script source visit.source)
    (deeper : script.indent.measure source.opening < script.indent.measure visit.source.opening)
    (cursor : source.last < next.cursor)
    (outside : ∀ line ∈ next.lines.head?, isBlankLine line = false ∧
      script.indent.measure line ≤ script.indent.measure source.opening) :
    next.visits ≠ visit :: later := by
  intro visits
  have code := next.nextCode?_lines visits fun position above below => blank position (by omega) below
  cases lines : next.lines with
  | nil =>
    rw [lines] at code
    cases code
  | cons line rest =>
    rw [lines] at outside code
    obtain ⟨visible, shallow⟩ := outside line rfl
    rw [nextCode?_visible visible, Option.some.injEq] at code
    rw [code] at shallow
    exact absurd shallow (by simpa using deeper)

theorem Stands.introduces (stands : leg.Stands line rest)
    (visits : leg.visits = ⟨header, block⟩ :: ⟨string, none⟩ :: later) (documents : Documents script header string) :
    ∃ (inner : Leg script) (after : List Text) (others : List Visit) (lead back : List Piece) (head : Piece),
      Introduces script header block lead head inner.pending ∧ inner.visits = ⟨string, none⟩ :: others ∧
      behind header rest = inner.lines ++ after ∧ inner.cursor = header.last + 1 ∧
      inner.level = script.indent.measure header.opening + 1 ∧
      leg.pieces = leg.pending ++ lead ++ head :: (inner.pieces ++ back) := by
  obtain rfl : assemble leg.cursor line rest = header := stands.found visits
  have opening : (assemble leg.cursor line rest).opening = line := headD_lines_assemble ..
  have unquoted := isDocstring_of_definition stands.visible documents.word
  cases block with
  | none =>
    have other : classify (assemble leg.cursor line rest).body ≠ .ok .decorator := by
      intro construct
      obtain ⟨kind, found, opens⟩ := LogicalStatement.isHeader_iff.1 documents.opens
      cases construct.symm.trans found
      cases opens
    obtain ⟨next, step, takes, visits'⟩ := stands.takes visits
    obtain ⟨_, stepped⟩ := takes.stepped
    obtain ⟨site, between, dispatched⟩ := stepped.emitted stands.visible other
    have body := hasBody_of_deeper documents.blank documents.deeper takes.cursor visits'
    rw [takes.lines] at body
    obtain ⟨lead, head, introduces, pieces, level⟩ :=
      dispatched.introduces documents.word documents.opens documents.stays body
    refine ⟨next, [], later, lead, [], head, takes.pending ▸ introduces, visits', ?_, takes.cursor,
      takes.level.trans level, ?_⟩
    · rw [takes.lines, List.append_nil]
    · rw [takes.pieces, unquoted, placePrologue, pieces]
      simp
  | some block =>
    cases leg.begins stands.lines with
    | skips _ skipped => exact absurd skipped stands.not_skipped
    | states _ _ _ _ _ _ _ _ _ visits' =>
      rw [visits] at visits'
      cases visits'
    | mocks next _ found same mocks cut cursor guarded outside _ copied _ visits' pieces =>
      subst found same
      rw [visits, List.cons.injEq, Visit.mk.injEq, Option.some.injEq] at visits'
      obtain ⟨⟨-, rfl⟩, visits'⟩ := visits'
      -- The string is in the block that is copied, for the lines behind the block are not deeper than the header.
      obtain ⟨others, inside⟩ : ∃ others, Instrument.visits script ((assemble leg.cursor line rest).last + 1) block =
          ⟨string, none⟩ :: others := by
        cases inside : Instrument.visits script ((assemble leg.cursor line rest).last + 1) block with
        | nil =>
          rw [inside, List.nil_append] at visits'
          exact absurd visits'.symm (not_outside documents.blank documents.deeper (by omega) (opening.symm ▸ outside))
        | cons visit others =>
          rw [inside, List.cons_append, List.cons.injEq] at visits'
          exact ⟨others, by rw [visits'.1]⟩
      rcases copied with ⟨inner, lines, cursor', -, level, pending, rfl⟩ | blank
      · rw [← cursor', ← lines] at inside
        have body := hasBody_of_deeper documents.blank documents.deeper cursor' inside
        rw [lines, opening] at body
        obtain ⟨lead, head, introduces, copies⟩ := mocks.introduces stands.visible guarded body
        obtain ⟨back, copied⟩ := copies inner.pieces
        refine ⟨inner, next.lines, others, lead, back ++ next.pieces, head, pending ▸ introduces, inside, ?_, cursor',
          ?_, ?_⟩
        · rw [cut, lines]
        · rw [level, opening]
          rfl
        · rw [pieces, unquoted, placePrologue, copied]
          simp
      · rw [visits_of_blank _ blank] at inside
        cases inside

theorem Stands.states (stands : leg.Stands line rest) (visits : leg.visits = ⟨string, none⟩ :: later)
    (quoted : isDocstring string.opening) :
    ∃ before own tail back, States script string before own ∧
      leg.pieces = before ++ own :: (tail ++ leg.pending ++ back) := by
  obtain ⟨next, step, takes, -⟩ := stands.takes visits
  obtain rfl := takes.found
  rw [opening_assemble] at quoted
  obtain ⟨_, stepped⟩ := takes.stepped
  obtain ⟨before, own, tail, states, pieces⟩ := stepped.states stands.visible quoted
  refine ⟨before, own, tail, next.pieces, states, ?_⟩
  rw [takes.pieces, quoted, placePrologue, pieces]
  simp

end Leg

theorem not_clause_of_string (quoted : isDocstring string.opening) (found : assemble cursor line rest = string) :
    isClauseLine line = false := by
  rw [← found, opening_assemble] at quoted
  apply isClauseLine_eq_false
  simpa using (opensString_of_isDocstring quoted).firstWord_not_mem clauseKeywords (by decide)

/-- Where the string stands that documents a definition. If it begins on the line behind the header, only what is put
before a string with a limit or with a colon at its end is between the two, and what opens the block comes behind the
string. If blank lines are between them, what opens the block and the reports on these lines come first. -/
theorem documented {pieces : List Piece} {pass : Pass} {earlier later : List Visit} {header string : LogicalStatement}
    {block : Option (List Text)} (flush : script.Flush) (done : wholeScript script = .ok (pieces, pass))
    (visited : visits script 0 script.lines = earlier ++ ⟨header, block⟩ :: ⟨string, none⟩ :: later)
    (documents : Documents script header string) :
    ∃ front lead head prologue before own tail back,
      Introduces script header block lead head prologue ∧ States script string before own ∧
      pieces = front ++ lead ++ head ::
        ((if header.last + 1 = string.first then []
          else prologue ++ Leg.between script (script.indent.measure header.opening + 1) header string) ++
        before ++ own :: (tail ++ (if header.last + 1 = string.first then prologue else []) ++ back)) := by
  have whole : (Leg.ofScript done).visits = earlier ++ ⟨header, block⟩ :: ⟨string, none⟩ :: later := visited
  cases (Leg.ofScript done).joins whole with
  | together part stands visits inside =>
    obtain ⟨inner, after, others, lead, back, head, introduces, visits', cut, cursor, level, opened⟩ :=
      stands.introduces visits documents
    obtain ⟨other, first, rest, there, visits'', reaches⟩ := Leg.reach stands (stands.found visits) cut cursor visits'
      documents.blank fun _ found => not_clause_of_string documents.quoted found
    obtain ⟨before, own, tail, behind, states, stated⟩ := there.states visits'' documents.quoted
    obtain ⟨ahead, rest, whole⟩ := inside
    refine ⟨ahead ++ part.pending, lead, head, inner.pending, before, own, tail, behind ++ back ++ rest, introduces,
      states, whole.symm.trans ?_⟩
    rw [opened]
    cases reaches with
    | atOnce near pending reached =>
      rw [reached, stated, pending, if_pos near, if_pos near]
      simp
    | behindBlanks far pending reached =>
      have apart : header.last + 1 ≠ string.first := Int.ne_of_lt far
      rw [reached, stated, pending, level, if_neg apart, if_neg apart]
      simp
  | apart part other front between back stands visits others whole called ends behind level outside deep =>
    refine absurd others (Leg.not_outside documents.blank documents.deeper behind fun line mem => ?_)
    obtain ⟨visible, shallow⟩ := outside line mem
    exact ⟨visible, Nat.le_of_lt (Nat.lt_of_le_of_lt shallow (deep flush))⟩

def documentedScript : Script :=
  .ofSource "def f(a,\n      b):  # limit(2)\n\n    r'doc'  # limit(3)".toList .standard 100

def documentedHeader : LogicalStatement :=
  ⟨0, 1, ["def f(a,".toList], "      b):  # limit(2)".toList, .closed, .closed⟩

def documentingString : LogicalStatement :=
  ⟨3, 3, [], "    r'doc'  # limit(3)".toList, .closed, .closed⟩

theorem documented_function :
    ∃ pieces pass front lead head prologue before own tail back, wholeScript documentedScript = .ok (pieces, pass) ∧
      Introduces documentedScript documentedHeader none lead head prologue ∧
      States documentedScript documentingString before own ∧
      pieces = front ++ lead ++ head ::
        (prologue ++ [.injected 1 (.probe none) 2] ++ before ++ own :: (tail ++ [] ++ back)) := by
  have flush : documentedScript.Flush := Script.flush_ofSource _ _ _
  have runs : (wholeScript documentedScript).isOk = true := by decide +kernel
  obtain ⟨⟨pieces, pass⟩, done⟩ := exists_ok runs
  have visited : visits documentedScript 0 documentedScript.lines =
      [] ++ ⟨documentedHeader, none⟩ :: ⟨documentingString, none⟩ :: [] := by decide +kernel
  have documents : Documents documentedScript documentedHeader documentingString := by
    refine ⟨by decide +kernel, by decide +kernel, ?_, by decide +kernel, by decide +kernel, ?_⟩
    · intro _ blocking
      exact absurd blocking (by decide +kernel)
    · intro position above below
      obtain rfl : position = 2 := by
        change 1 < position at above
        change position < 3 at below
        omega
      decide +kernel
  obtain ⟨front, lead, head, prologue, before, own, tail, back, introduces, states, whole⟩ :=
    documented flush done visited documents
  have apart : documentedHeader.last + 1 ≠ documentingString.first := by decide
  have between : Leg.between documentedScript (documentedScript.indent.measure documentedHeader.opening + 1)
      documentedHeader documentingString = [.injected 1 (.probe none) 2] := by decide +kernel
  rw [if_neg apart, if_neg apart, between] at whole
  exact ⟨pieces, pass, front, lead, head, prologue, before, own, tail, back, done, introduces, states, whole⟩

/-- What is put between a header and the string that documents it: what opens the block and a report on the line between
them, the guard of the string, a probe for a string that ends as a header does, and the guard of a mocked function. -/
theorem strings_parted :
    instrumentedTexts "def f(a):\n\n    'doc'" =
        some (["def f(a):", "    print(\"0:a: \" + str(a))", "    print(\"1:\")", "    'doc'", "    print(\"2:\")"].map
          String.toList) ∧
      instrumentedTexts "def f(a):\n    'doc'  # limit(3)" =
        some (["def f(a):", "    _clem_guard(\"s1\", 1, 3)", "    'doc'", "    print(\"1:\")",
          "    print(\"0:a: \" + str(a))"].map String.toList) ∧
      instrumentedTexts "def f():\n    'doc':" =
        some (["def f():", "    print(\"1:\")", "    'doc':", "        pass"].map String.toList) ∧
      instrumentedTexts "def f():  # mock() limit(2)\n    'doc'" =
        some (["def f():  # mock() limit(2)", "    _clem_guard(\"s1\", 0, 2)", "    'doc'",
          "def _clem_mock_2():  # mock() limit(2)", "    'doc'", "    print(\"1:\")", "_clem_mock_2()"].map
          String.toList) := by
  refine ⟨?_, ?_, ?_, ?_⟩ <;> decide +kernel

end LineProbe.Instrument
