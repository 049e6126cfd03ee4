import LineProbe.Proofs.Layout
import LineProbe.Proofs.Neighbours

/-!
# Definitions and strings

How the statements begin that define a function or a class, those that are a string, and what they become.
-/

namespace LineProbe

open Text

/-! ## The first line of a statement -/

theorem code_cases (first : Int) (line : Text) (rest : List Text) :
    (∃ blanks comment, line = (assemble first line rest).code ++ (blanks ++ comment) ∧
      (∀ c ∈ blanks, isBlankChar c) ∧ (comment = [] ∨ ∃ more, comment = '#' :: more)) ∨
    (assemble first line rest).before ≠ [] ∧ ∃ more, (assemble first line rest).code = line ++ '\n' :: more := by
  rcases assemble_cases first line rest with single | ⟨more, several⟩
  · left
    obtain ⟨comment, whole, kind⟩ : ∃ comment, line = (assemble first line rest).finalParts.1 ++ comment ∧
        (comment = [] ∨ ∃ more, comment = '#' :: more) := by
      have final : (assemble first line rest).final = line := by rw [single]
      rcases finalParts_cases (assemble first line rest) with same | ⟨index, found, cut⟩
      · exact ⟨[], by rw [same, final, List.append_nil], .inl rfl⟩
      · have hash := (commentStart?_eq_some found).1
        rw [final] at hash cut
        obtain ⟨inside, mark⟩ := List.getElem?_eq_some_iff.1 hash
        refine ⟨line.drop index, by rw [cut, List.take_append_drop], .inr ⟨line.drop (index + 1), ?_⟩⟩
        rw [List.drop_eq_getElem_cons inside, mark]
    obtain ⟨blanks, trimmed, blank⟩ := trimRight_append_blanks (assemble first line rest).finalParts.1
    have own : (assemble first line rest).code = trimRight (assemble first line rest).finalParts.1 := by
      rw [LogicalStatement.code, single]
      rfl
    exact ⟨blanks, comment, by rw [own, ← List.append_assoc, trimmed, ← whole], blank, kind⟩
  · right
    refine ⟨by simp [several], joinLines (more ++ [trimRight (assemble first line rest).finalParts.1]), ?_⟩
    rw [LogicalStatement.code, several, List.cons_append, joinLines_cons _ (by simp)]

variable {source : LogicalStatement}

theorem exists_opening (first : Int) (rest : List Text) (visible : isBlankLine line = false) :
    ∃ part blanks comment tail, trimLeft line = part ++ (blanks ++ comment) ∧
      (assemble first line rest).body = part ++ tail ∧ (∀ c ∈ blanks, isBlankChar c) ∧
      (comment = [] ∨ ∃ more, comment = '#' :: more) ∧ (tail = [] ∨ ∃ more, tail = '\n' :: more) := by
  have code := leadingBlanks_append_body_assemble first rest visible
  rcases code_cases first line rest with ⟨blanks, comment, whole, blank, kind⟩ | ⟨-, more, several⟩
  · refine ⟨(assemble first line rest).body, blanks, comment, [], ?_, (List.append_nil _).symm, blank, kind, .inl rfl⟩
    rw [← List.append_right_inj (leadingBlanks line), leadingBlanks_append_trimLeft, ← List.append_assoc, code, ← whole]
  · refine ⟨trimLeft line, [], [], '\n' :: more, (List.append_nil _).symm, ?_, by simp, .inl rfl, .inr ⟨_, rfl⟩⟩
    rw [← List.append_right_inj (leadingBlanks line), code, several, ← List.append_assoc, leadingBlanks_append_trimLeft]

theorem not_word_of_comment (blank : ∀ c ∈ blanks, isBlankChar c) (kind : comment = [] ∨ ∃ more, comment = '#' :: more) :
    ∀ c ∈ (blanks ++ comment).head?, isWordChar c = false := by
  intro c head
  rw [List.head?_append, Option.mem_def, Option.or_eq_some_iff] at head
  rcases head with inside | ⟨-, inside⟩
  · exact isWordChar_of_isBlankChar (blank c (List.mem_of_head? inside))
  · rcases kind with rfl | ⟨more, rfl⟩
    · cases inside
    · cases inside
      decide

theorem firstWord_opening (first : Int) (rest : List Text) (visible : isBlankLine line = false) :
    Construct.firstWord (trimLeft line) = Construct.firstWord (assemble first line rest).body := by
  obtain ⟨part, blanks, comment, tail, opening, body, blank, kind, behind⟩ := exists_opening first rest visible
  have ends := not_word_of_comment blank kind
  have ends' : ∀ c ∈ tail.head?, isWordChar c = false := by
    rcases behind with rfl | ⟨more, rfl⟩
    · simp
    · rintro c ⟨⟩
      decide
  rw [opening, body, Construct.firstWord, Construct.firstWord, nameAtStart_append _ ends, nameAtStart_append _ ends']

theorem firstWord_trim (line : Text) : Construct.firstWord (trim line) = Construct.firstWord (trimLeft line) := by
  obtain ⟨blanks, trimmed, blank⟩ := trimRight_append_blanks (trimLeft line)
  conv => rhs; rw [← trimmed]
  refine (nameAtStart_append _ fun c head => ?_).symm
  exact isWordChar_of_isBlankChar (blank c (List.mem_of_head? head))

theorem isClauseLine_eq_false (other : Construct.clauseKeywords.contains (Construct.firstWord (trimLeft line)) = false) :
    Instrument.isClauseLine line = false := by
  simp only [Instrument.isClauseLine, firstWord_trim, other, Bool.false_and]

/-! ## Strings -/

def isStringLetter (c : Char) : Bool :=
  "rRuUbBfF".toList.contains c

def isQuote (c : Char) : Bool :=
  c == '\'' || c == '"'

inductive OpensString : Text → Prop where
  | intro {letters tail : Text} {quote : Char} (known : ∀ c ∈ letters, isStringLetter c = true)
    (few : letters.length ≤ 2) (quoted : isQuote quote = true) : OpensString (letters ++ quote :: tail)

theorem opensString_of_isDocstring (h : Construct.isDocstring line) : OpensString (trimLeft line) := by
  have parts := (List.takeWhile_append_dropWhile (p := isStringLetter) (l := trimLeft line)).symm
  have behind : (trimLeft line).drop ((trimLeft line).takeWhile isStringLetter).length =
      (trimLeft line).dropWhile isStringLetter := by
    conv => lhs; arg 2; rw [parts]
    exact List.drop_left
  simp only [Construct.isDocstring, Bool.and_eq_true, decide_eq_true_eq] at h
  obtain ⟨few, quoted⟩ := h
  obtain ⟨quote, found, quoted⟩ := (Option.any_eq_true _ _).1 quoted
  change (trimLeft line)[((trimLeft line).takeWhile isStringLetter).length]? = some quote at found
  rw [← List.head?_drop, behind] at found
  obtain ⟨tail, rest⟩ := List.head?_eq_some_iff.1 found
  rw [parts, rest]
  exact .intro (fun c mem => List.mem_takeWhile_imp mem) few quoted

namespace OpensString

theorem not_target (h : isQuote quote) : Construct.isTargetChar quote = false := by
  rcases (by simpa [isQuote] using h : quote = '\'' ∨ quote = '"') with rfl | rfl <;> decide

theorem head? (h : OpensString code) : ∃ c ∈ "rRuUbBfF'\"".toList, code.head? = some c := by
  cases h with
  | @intro letters tail quote known few quoted =>
    cases letters with
    | nil =>
      rcases (by simpa [isQuote] using quoted : quote = '\'' ∨ quote = '"') with rfl | rfl
      · exact ⟨'\'', by decide, rfl⟩
      · exact ⟨'"', by decide, rfl⟩
    | cons c letters =>
      have mem : c ∈ "rRuUbBfF".toList := by simpa [isStringLetter] using known c List.mem_cons_self
      exact ⟨c, List.mem_append_left "'\"".toList mem, rfl⟩

theorem body (first : Int) {line : Text} (rest : List Text) (visible : isBlankLine line = false)
    (h : OpensString (trimLeft line)) : OpensString (assemble first line rest).body := by
  obtain ⟨part, blanks, comment, tail, opening, body, blank, kind, -⟩ := exists_opening first rest visible
  have stop : ¬ OpensString (blanks ++ comment) := by
    intro opens
    obtain ⟨c, mem, head⟩ := opens.head?
    have visible : ∀ c ∈ "rRuUbBfF'\"".toList, isBlankChar c = false ∧ c ≠ '#' := by decide
    rw [List.head?_append, Option.or_eq_some_iff] at head
    rcases head with inside | ⟨-, inside⟩
    · have := blank c (List.mem_of_head? inside)
      rw [(visible c mem).1] at this
      cases this
    · rcases kind with rfl | ⟨more, rfl⟩
      · cases inside
      · cases inside
        exact (visible _ mem).2 rfl
  generalize trimLeft line = text at h opening
  cases h with
  | @intro letters rest quote known few quoted =>
    rw [body]
    rcases List.append_eq_append_iff.1 opening with ⟨between, rfl, behind⟩ | ⟨between, rfl, behind⟩
    · cases between with
      | nil =>
        have alone : OpensString ([] ++ quote :: rest) := .intro (by simp) (by simp) quoted
        exact absurd (behind ▸ alone) stop
      | cons c between =>
        obtain ⟨rfl, -⟩ := List.cons.inj behind
        rw [List.append_assoc]
        exact .intro known few quoted
    · rw [List.forall_mem_append] at known
      rw [List.length_append] at few
      exact absurd (behind ▸ .intro known.2 (by omega) quoted) stop

theorem firstWord (h : OpensString code) : ∀ c ∈ Construct.firstWord code, isStringLetter c := by
  cases h with
  | intro known few quoted =>
    intro c mem
    rw [Construct.firstWord, nameAtStart_append _ (Construct.not_word_of_not_target (not_target quoted) _)] at mem
    exact known c ((isPrefix_nameAtStart _).subset mem)

theorem firstWord_not_mem (h : OpensString code) (words : List Text)
    (other : words.all (fun word => !word.all isStringLetter)) : Construct.firstWord code ∉ words := by
  intro mem
  have known : (Construct.firstWord code).all isStringLetter := List.all_eq_true.2 h.firstWord
  have := List.all_eq_true.1 other _ mem
  rw [known] at this
  cases this

theorem swapped (h : OpensString code) (swap : Swapped New joined mode code code') : OpensString code' := by
  cases h with
  | @intro letters tail quote known few quoted =>
    have plain : '(' ∉ letters := fun mem => absurd (known _ mem) (by decide)
    have notParen : quote ≠ '(' := by
      rintro rfl
      cases quoted
    obtain ⟨tail', rfl, -⟩ := swap.front plain (not_target quoted) notParen
    exact .intro known few quoted

theorem nameAtStart_of_letters (known : ∀ c ∈ letters, isStringLetter c) : nameAtStart letters = letters := by
  have named : ∀ c ∈ "rRuUbBfF".toList, isNameStart c ∧ isWordChar c := by decide
  have each (c : Char) (mem : c ∈ letters) := named c (by simpa [isStringLetter] using known c mem)
  cases letters with
  | nil => rfl
  | cons c letters =>
    rw [nameAtStart, if_pos (each c List.mem_cons_self).1, List.takeWhile_eq_self_iff.2]
    exact fun d mem => (each d (List.mem_cons_of_mem _ mem)).2

theorem afterTarget? {rest : Text} (h : OpensString code) (found : Construct.afterTarget? code = some rest) :
    ∃ quote tail, trimLeft rest = quote :: tail ∧ isQuote quote := by
  cases h with
  | @intro letters tail quote known few quoted =>
    have other := not_target quoted
    have notBlank : isBlankChar quote = false := by
      simp only [Construct.isTargetChar, Bool.or_eq_false_iff] at other
      exact other.2
    have trimmed : trimLeft (quote :: tail) = quote :: tail := trimLeft_of_head (by rintro _ ⟨⟩; exact notBlank)
    have left : Construct.afterAttributes (quote :: tail) = quote :: tail := by
      apply Construct.afterAttributes_of_other
      rw [trimmed, List.head?_cons]
      rintro ⟨⟩
      cases quoted
    simp only [Construct.afterTarget?, nameAtStart_append _ (Construct.not_word_of_not_target other tail),
      nameAtStart_of_letters known, List.drop_left, left, Option.ite_none_left_eq_some, Option.some.injEq] at found
    obtain ⟨-, rfl⟩ := found
    exact ⟨quote, tail, trimmed, quoted⟩

open Construct in
theorem construct (h : OpensString code) (found : classify code = .ok kind) :
    endsWithChar code ':' = false ∧ kind = .plain ∨
      endsWithChar code ':' ∧ kind = .blockHeader (Construct.firstWord code) := by
  cases classify_ok found with
  | declared known => exact .inl ⟨(annotationOnly?_iff.1 known).2.2.1, rfl⟩
  | plain _ last => exact .inl ⟨last, rfl⟩
  | blockHeader _ colon => exact .inr ⟨colon, rfl⟩
  | decorator known =>
    obtain ⟨c, mem, head⟩ := h.head?
    obtain ⟨at_, -⟩ := decorator?_iff.1 known
    rw [head, Option.some.injEq] at at_
    rw [at_] at mem
    exact absurd mem (by decide)
  | augmented known =>
    obtain ⟨rest, operator, behind, _, target, operates, -⟩ := augmented?_iff.1 known
    obtain ⟨quote, tail, trimmed, quoted⟩ := h.afterTarget? target
    obtain ⟨whole, filled, chars⟩ := operator?_spec operates
    obtain ⟨c, operator, rfl⟩ := List.exists_cons_of_ne_nil filled
    rw [trimmed] at whole
    obtain ⟨rfl, -⟩ := List.cons.inj whole
    have := chars quote List.mem_cons_self
    rcases (by simpa [isQuote] using quoted : quote = '\'' ∨ quote = '"') with rfl | rfl <;> exact absurd this (by decide)
  | assignment known =>
    obtain ⟨rest, _, target, equals, -⟩ := assignment?_iff.1 known
    obtain ⟨quote, tail, trimmed, quoted⟩ := h.afterTarget? target
    rw [trimmed] at equals
    obtain ⟨rfl, -⟩ := List.cons.inj (afterEquals?_iff.1 equals).1
    cases quoted
  | annotated known =>
    obtain ⟨rest, _, _, colon, -⟩ := annotated?_iff.1 known
    obtain ⟨target, colon, -⟩ := afterAnnotationColon?_iff.1 colon
    obtain ⟨quote, tail, trimmed, quoted⟩ := h.afterTarget? target
    rw [trimmed] at colon
    obtain ⟨rfl, -⟩ := List.cons.inj colon
    cases quoted
  | printCall known =>
    obtain ⟨_, starts, -⟩ := print?_iff.1 known
    obtain ⟨c, mem, head⟩ := h.head?
    obtain ⟨rest, rfl⟩ := startsWith_eq_true starts
    cases head
    exact absurd mem (by decide)
  | forHeader known =>
    obtain ⟨_, _, shape, -, -⟩ := forHeader?_iff_shape.1 known
    exact absurd (List.mem_singleton.2 shape.firstWord) (h.firstWord_not_mem ["for"] (by decide))
  | returning word => exact absurd (List.mem_singleton.2 word) (h.firstWord_not_mem ["return"] (by decide))
  | defHeader _ parts _ => exact absurd (firstWord_of_defParts? parts) (h.firstWord_not_mem _ (by decide))
  | inlineCompound _ _ known =>
    obtain ⟨_, word, -⟩ := inlineCompound?_iff.1 known
    exact absurd (by simpa using word) (h.firstWord_not_mem compoundKeywords (by decide))
  | ignorable _ word => exact absurd (by simpa using word) (h.firstWord_not_mem ignorableKeywords (by decide))

end OpensString

/-! ## Statements as they are dispatched -/

/-- The code of a statement with its blocking calls replaced, numbered from `site` on. -/
def LogicalStatement.emitted (source : LogicalStatement) (callLimit : Int) (site : Nat) : Text :=
  (substituteBlocking source.body source.first source.directives callLimit site).1

theorem substituteBlocking_of_free (free : hasBlockingCall code = false) (line : Int) (directives : Directives)
    (callLimit : Int) (site : Nat) : (substituteBlocking code line directives callLimit site).1 = code := by
  have spans : blockingSpans code = [] := by simpa [hasBlockingCall] using free
  rw [substituteBlocking, spans]
  rfl

namespace Instrument

open Construct

variable {pass : Pass}

def emittedStatement (script : Script) (source : LogicalStatement) (after : List Text) (site : Nat) : Statement :=
  { first := source.first
    last := source.last
    level := script.indent.measure source.opening
    indentation := leadingBlanks source.opening
    body := source.emitted script.callLimit site
    directives := source.directives
    mock := if hasBlockingCall source.body then none else source.directives.mock
    after
    guarded := hasBlockingCall source.body
    reportsInterior := true }

theorem Stepped.emitted
    (h : Stepped script (assemble cursor line rest) (statementOf script (assemble cursor line rest) line after) pass step pass')
    (visible : isBlankLine line = false) (other : classify (assemble cursor line rest).body ≠ .ok .decorator) :
    ∃ site between,
      Dispatched script (emittedStatement script (assemble cursor line rest) after site) between step pass' := by
  have body := body_statementOf script cursor rest after visible
  have opening := headD_lines_assemble cursor line rest
  cases h with
  | decorator construct => exact absurd (body ▸ construct) other
  | kept _ _ free dispatched =>
    rw [body] at free
    have same : emittedStatement script (assemble cursor line rest) after 0 =
        statementOf script (assemble cursor line rest) line after := by
      rw [emittedStatement, LogicalStatement.emitted, substituteBlocking_of_free free, free, LogicalStatement.opening,
        opening, ← body]
      rfl
    exact ⟨0, pass, same ▸ dispatched⟩
  | replaced _ _ blocking dispatched =>
    rw [body] at blocking
    have same : emittedStatement script (assemble cursor line rest) after pass.next =
        (statementOf script (assemble cursor line rest) line after).replaced script pass.next := by
      rw [emittedStatement, LogicalStatement.emitted, blocking, LogicalStatement.opening, opening, ← body]
      rfl
    rw [← same] at dispatched
    exact ⟨pass.next, _, dispatched⟩

/-! ## Definitions -/

def definitionWords : List Text :=
  ["def", "class", "async"]

def functionParams? (code : Text) : Option (List Text) :=
  match classify code with
  | .ok (.defHeader _ params) => some params
  | _ => none

def herald (level : Nat) (first : Int) (head : Text) : List Piece :=
  if (functionParams? head).isSome then [] else [.injected level (.probe none) first]

def parameterReports (level : Nat) (first : Int) (head : Text) : List Piece :=
  ((functionParams? head).getD []).map fun name => .injected level (.parameter name) first

theorem functionParams?_eq_none (found : classify code = .ok kind)
    (other : ∀ name params, kind ≠ .defHeader name params) : functionParams? code = none := by
  rw [functionParams?, found]
  cases kind <;> first | rfl | exact absurd rfl (other _ _)

theorem not_function_of_class (word : firstWord code = "class") : functionParams? code = none := by
  cases found : classify code with
  | error fault => rw [functionParams?, found]
  | ok kind =>
    refine functionParams?_eq_none found ?_
    rintro name params rfl
    cases classify_ok found with
    | defHeader _ parts _ => exact absurd (word ▸ firstWord_of_defParts? parts) (by decide)

theorem isDocstring_eq_false {words : List Text} (visible : isBlankLine line = false)
    (word : firstWord (assemble cursor line rest).body ∈ words)
    (other : words.all (fun word => !word.all isStringLetter)) : isDocstring line = false := by
  by_contra string
  have opens := (opensString_of_isDocstring (by simpa using string)).body cursor rest visible
  exact opens.firstWord_not_mem words other word

theorem isDocstring_of_definition (visible : isBlankLine line = false)
    (word : firstWord (assemble cursor line rest).body ∈ definitionWords) : isDocstring line = false :=
  isDocstring_eq_false visible word (by decide)

theorem of_mem_definitionWords (mem : word ∈ definitionWords) :
    isProbed word ∧ isBranch word = false ∧ word ≠ "while" ∧ word ≠ "if" ∧ word ≠ "for" := by
  have all : ∀ word ∈ definitionWords, isProbed word ∧ isBranch word = false ∧ word ≠ "while" ∧ word ≠ "if" ∧
    word ≠ "for" := by decide
  exact all word mem

theorem BranchKeys.eq_nil (h : BranchKeys script st (.blockHeader keyword) keys) (notWhile : keyword ≠ "while")
    (notIf : keyword ≠ "if") : keys = [] := by
  cases h with
  | repetition => exact absurd rfl notWhile
  | choice => exact absurd rfl notIf
  | other => rfl

theorem Heads.of_definition (found : classify st.body = .ok kind)
    (h : Heads script st (inlineConstruct st.body kind) pass parts pass') (word : firstWord st.body ∈ definitionWords) :
    parts.before = herald st.level st.first st.body ∧ parts.header = [st.heading] ∧
      ∃ guards, Guards st (st.level + 1) pass guards pass' ∧
        parts.prologue = parameterReports (st.level + 1) st.first st.body ++ guards ++ st.interior (st.level + 1) := by
  obtain ⟨probed, unbranched, notWhile, notIf, notFor⟩ := of_mem_definitionWords word
  have kinds : inlineConstruct st.body kind = kind ∨
      kind.opensBlock = false ∧ inlineConstruct st.body kind = .blockHeader (firstWord st.body) := by
    unfold inlineConstruct
    cases opens : kind.opensBlock
    · exact .inr ⟨rfl, rfl⟩
    · exact .inl rfl
  have known := classify_ok found
  generalize inlineConstruct st.body kind = construct at h kinds
  cases h with
  | loop =>
    rcases kinds with rfl | ⟨-, other⟩
    · cases known with
      | forHeader loop =>
        obtain ⟨_, _, shape, -, -⟩ := forHeader?_iff_shape.1 loop
        exact absurd shape.firstWord notFor
    · cases other
  | definition marked guarded =>
    rcases kinds with rfl | ⟨-, other⟩
    · cases marked
      refine ⟨?_, rfl, _, guarded, ?_⟩
      · rw [herald, functionParams?, found]
        rfl
      · rw [parameterReports, functionParams?, found]
        rfl
    · cases other
  | @block keyword keys _ _ guards marked guarded =>
    have own : keyword = firstWord st.body ∧ functionParams? st.body = none := by
      rcases kinds with rfl | ⟨plain, other⟩
      · cases known with
        | blockHeader => exact ⟨rfl, functionParams?_eq_none found (by simp)⟩
      · cases other
        refine ⟨rfl, functionParams?_eq_none found ?_⟩
        rintro name params rfl
        cases plain
    obtain ⟨rfl, none_⟩ := own
    refine ⟨?_, rfl, guards, guarded, ?_⟩
    · rw [herald, none_, marked.eq_nil notWhile notIf, probed]
      rfl
    · rw [parameterReports, none_, unbranched]
      rfl

def headCode (code : Text) : Text :=
  match classify code with
  | .ok (.inlineCompound colon) => code.take (colon + 1)
  | _ => code

def IsCompound (code : Text) : Prop :=
  ∃ kind, classify code = .ok kind ∧ (kind.opensBlock = true ∨ ∃ colon, kind = .inlineCompound colon)

theorem headCode_of_opensBlock (found : classify code = .ok kind) (opens : kind.opensBlock) : headCode code = code := by
  rw [headCode, found]
  cases kind <;> first | rfl | cases opens

theorem firstWord_take_colon (found : classify code = .ok (.inlineCompound colon)) :
    firstWord (code.take (colon + 1)) = firstWord code := by
  cases classify_ok found with
  | inlineCompound _ _ inline =>
    obtain ⟨head, body, shape, rfl⟩ := inlineCompound?_iff_shape.1 inline
    rw [shape.take, shape.whole]
    exact firstWord_front head (by decide) [] body

theorem firstWord_headCode (code : Text) : firstWord (headCode code) = firstWord code := by
  unfold headCode
  split
  · next found => exact firstWord_take_colon found
  · rfl

theorem Dispatched.of_opensBlock (h : Dispatched script st pass step pass') (found : classify st.body = .ok kind)
    (opens : kind.opensBlock) :
    ∃ parts, Heads script st kind (pass.counted (kindOf kind)) parts pass' ∧
      step = if hasBody script.indent st.after st.level then ⟨parts.before ++ parts.header, st.level + 1, parts.prologue⟩
        else ⟨parts.before ++ parts.header ++ orPass st (st.level + 1) parts.prologue, st.level + 1, []⟩ := by
  cases h with
  | opened construct _ heads body =>
    cases found.symm.trans construct
    exact ⟨_, heads, by rw [if_pos body]⟩
  | openedEmpty construct _ heads empty =>
    cases found.symm.trans construct
    exact ⟨_, heads, by rw [if_neg (by simp [empty])]⟩
  | assigned construct assigns =>
    cases found.symm.trans construct
    rcases assigns with rfl | rfl <;> cases opens
  | plain construct simple =>
    cases found.symm.trans construct
    rcases simple with rfl | rfl <;> cases opens
  | _ construct =>
    cases found.symm.trans construct
    cases opens

structure HeadOf (st head : Statement) : Prop where
  body : head.body = headCode st.body
  level : head.level = st.level
  first : head.first = st.first
  last : head.last = st.last
  indentation : head.indentation = st.indentation

theorem HeadOf.heading (h : HeadOf st head) :
    head.heading = .header (st.indentation ++ headCode st.body) st.first st.last := by
  rw [Statement.heading, h.indentation, h.body, h.first, h.last]

theorem Dispatched.of_compound (h : Dispatched script st pass step pass') (compound : IsCompound st.body) :
    ∃ head kind before after parts back, HeadOf st head ∧ classify head.body = .ok kind ∧
      Heads script head (inlineConstruct head.body kind) before parts after ∧
      step.pieces = parts.before ++ parts.header ++ back := by
  obtain ⟨kind, found, opens | ⟨colon, rfl⟩⟩ := compound
  · obtain ⟨parts, heads, rfl⟩ := h.of_opensBlock found opens
    have same : inlineConstruct st.body kind = kind := if_pos opens
    have head : HeadOf st st := ⟨(headCode_of_opensBlock found opens).symm, rfl, rfl, rfl, rfl⟩
    rw [← same] at heads
    split
    · exact ⟨st, kind, _, _, parts, [], head, found, heads, (List.append_nil _).symm⟩
    · exact ⟨st, kind, _, _, parts, _, head, found, heads, rfl⟩
  · have head : HeadOf st (st.inlineHead colon) := ⟨by rw [headCode, found]; rfl, rfl, rfl, rfl, rfl⟩
    cases h with
    | inline construct header heads body =>
      cases found.symm.trans construct
      exact ⟨_, _, _, _, _, _, head, header, heads, by simp only [List.append_assoc]; rfl⟩
    | opened construct opens | openedEmpty construct opens =>
      cases found.symm.trans construct
      cases opens
    | assigned construct assigns =>
      cases found.symm.trans construct
      exact absurd assigns (by simp)
    | plain construct simple =>
      cases found.symm.trans construct
      exact absurd simple (by simp)
    | _ construct => cases found.symm.trans construct

theorem Dispatched.definition (h : Dispatched script st pass step pass') (compound : IsCompound st.body)
    (word : firstWord st.body ∈ definitionWords) :
    ∃ back, step.pieces = herald st.level st.first (headCode st.body) ++
      .header (st.indentation ++ headCode st.body) st.first st.last :: back := by
  obtain ⟨head, kind, _, _, parts, back, isHead, found, heads, whole⟩ := h.of_compound compound
  have word : firstWord head.body ∈ definitionWords := by rwa [isHead.body, firstWord_headCode]
  obtain ⟨before, header, -⟩ := heads.of_definition found word
  rw [whole, before, header, isHead.heading, isHead.level, isHead.first, isHead.body]
  exact ⟨back, by simp⟩

theorem firstWord_emitted_of_not_operand (callLimit : Int) (site : Nat) (other : firstWord source.body ∉ operandWords) :
    firstWord (source.emitted callLimit site) = firstWord source.body :=
  (substituteBlocking_enclosed ..).firstWord_eq rfl other

theorem firstWord_emitted (callLimit : Int) (site : Nat) (word : firstWord source.body ∈ definitionWords) :
    firstWord (source.emitted callLimit site) = firstWord source.body := by
  have other : ∀ word ∈ definitionWords, word ∉ operandWords := by decide
  exact firstWord_emitted_of_not_operand callLimit site (other _ word)

theorem IsCompound.emitted (h : IsCompound source.body) (closed : Closed (mockValue source.directives))
    (found' : classify (source.emitted callLimit site) = .ok kind) : IsCompound (source.emitted callLimit site) := by
  have swapped := (substituteBlocking_swapped source.body source.first callLimit site closed).operands
  obtain ⟨kind, found, opens | ⟨colon, rfl⟩⟩ := h
  · exact ⟨_, found', .inl (opensBlock_swapped swapped found opens found')⟩
  · cases classify_ok found with
    | inlineCompound early last inline =>
      obtain ⟨head, body, shape, -⟩ := inlineCompound?_iff_shape.1 inline
      obtain ⟨head', _, _, found', -, -⟩ := classify_inline_swapped swapped.symm shape last early
      exact ⟨_, found', .inr ⟨head'.length, rfl⟩⟩

def instrumentedTexts (source : String) : Option (List Text) :=
  (instrument source.toList .standard 100).toOption.map fun program => program.body.map GeneratedLine.text

end Instrument

end LineProbe
