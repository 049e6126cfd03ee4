import LineProbe.Proofs.Labels
import LineProbe.Proofs.Neighbours

/-!
# Numbers are used once

Numbers are drawn from one counter.
-/

namespace LineProbe

open Text

/-! ## Texts cut out of a body -/

def Borrows (body text : Text) : Prop :=
  ∀ part, Marker part → occurrences part text ≤ occurrences part body

theorem borrows_of_within (h : text <:+: body) : Borrows body text :=
  fun part _ => occurrences_le_of_within h part

theorem borrows_of_unmarked (free : Unmarked text) : Borrows body text :=
  fun _ marker => (marker.unmarked free).symm ▸ Nat.zero_le _

theorem Borrows.stemless (h : Borrows body text) (free : Stemless body) : Stemless text :=
  fun kind => Nat.le_zero.1 (free kind ▸ h _ (marker_stem kind))

theorem Borrows.parenthesized (h : Borrows body text) : Borrows body ("(".toList ++ text ++ ")".toList) := by
  intro part marker
  rw [show "(".toList ++ text ++ ")".toList = '(' :: (text ++ [')']) by simp, marker.opened, marker.closed]
  exact h part marker

theorem Unmarked.of_within (free : Unmarked body) (h : text <:+: body) : Unmarked text :=
  Nat.le_zero.1 (free ▸ occurrences_le_of_within h clemRoot)

theorem unmarked_cons (cuts : c ∉ clemRoot) (h : Unmarked first) (h' : Unmarked last) :
    Unmarked (first ++ c :: last) := by
  rw [Unmarked, occurrences_cut (by decide) cuts, h, h']

theorem unmarked_joinLines (h : ∀ line ∈ lines, Unmarked line) : Unmarked (joinLines lines) := by
  induction lines with
  | nil => rfl
  | cons line lines ih =>
    rw [List.forall_mem_cons] at h
    by_cases empty : lines = []
    · subst empty
      simpa [joinLines, join] using h.1
    · rw [joinLines_cons line empty]
      exact unmarked_cons (by decide) h.1 (ih h.2)

/-! ## Pieces -/

def share (number first next : Nat) : Nat :=
  if first ≤ number ∧ number < next then 1 else 0

theorem share_le_one (number first next : Nat) : share number first next ≤ 1 := by
  unfold share
  split <;> omega

theorem share_add (number : Nat) (h : first ≤ between) (h' : between ≤ next) :
    share number first between + share number between next = share number first next := by
  unfold share
  split <;> split <;> split <;> omega

theorem share_succ (number first : Nat) : share number first (first + 1) = if first = number then 1 else 0 := by
  unfold share
  split <;> split <;> omega

namespace Instrument

variable {config : IndentConfig} {pass pass' : Pass}

def introduced (config : IndentConfig) (number : Nat) : List Piece → Nat
  | [] => 0
  | piece :: pieces => introductions number (piece.text config) + introduced config number pieces

theorem introduced_append (first last : List Piece) :
    introduced config number (first ++ last) = introduced config number first + introduced config number last := by
  induction first with
  | nil => exact (Nat.zero_add _).symm
  | cons piece first ih => rw [List.cons_append, introduced, introduced, ih, Nat.add_assoc]

theorem introduced_eq_zero (h : ∀ piece ∈ pieces, introductions number (piece.text config) = 0) :
    introduced config number pieces = 0 := by
  induction pieces with
  | nil => rfl
  | cons piece pieces ih =>
    rw [List.forall_mem_cons] at h
    rw [introduced, h.1, ih h.2]

theorem introductions_joinLines (config : IndentConfig) (number : Nat) (pieces : List Piece) :
    introductions number (joinLines (pieces.map (Piece.text config))) = introduced config number pieces := by
  induction pieces with
  | nil => rfl
  | cons piece pieces ih =>
    by_cases empty : pieces = []
    · subst empty
      simp [joinLines, join, introduced]
    · rw [List.map_cons, joinLines_cons _ (by simpa using empty), introductions_newline, ih, introduced]

theorem introductions_indented (indented : ∀ c ∈ indentation, isBlankChar c) (free : Stemless text) :
    introductions number (indentation ++ text) = occurrences (guardOpening number) text := by
  rw [introductions_blanks indented, free.bindless.introductions_eq]

theorem introductions_injected (h : Signless text) (level : Nat) :
    introductions number (config.render level ++ text) = 0 := by
  rw [introductions_blanks fun c mem => (blank_render config level c mem).1, h.introductions_eq]

theorem introduced_interior (st : Statement) (level : Nat) : introduced config number (st.interior level) = 0 := by
  refine introduced_eq_zero fun piece mem => ?_
  obtain ⟨origin, rfl⟩ := eq_of_mem_interior mem
  exact introductions_injected (neutral_bare origin).signless level

theorem introduced_marks (st : Statement) (keys : List Int) :
    introduced config number (keys.map fun key => st.inject st.level (.mark key)) = 0 := by
  refine introduced_eq_zero fun piece mem => ?_
  obtain ⟨key, -, rfl⟩ := List.mem_map.1 mem
  exact introductions_injected (neutral_mark key).signless st.level

theorem introduced_parameters {params : List Text} (wordy : ∀ param ∈ params, Wordy param) (st : Statement)
    (level : Nat) : introduced config number (params.map fun name => st.inject level (.parameter name)) = 0 := by
  refine introduced_eq_zero fun piece mem => ?_
  obtain ⟨name, known, rfl⟩ := List.mem_map.1 mem
  exact introductions_injected (signless_parameter (wordy name known) st.first) level

theorem introductions_report (st : Statement) (level : Nat) :
    introductions number ((st.inject level (.probe none)).text config) = 0 :=
  introductions_injected (neutral_bare st.first).signless level

theorem introductions_show (st : Statement) (level : Nat) (h : Signless payload) :
    introductions number ((st.inject level (.probe (some payload))).text config) = 0 :=
  introductions_injected (signless_showing h st.first) level

theorem introductions_pass (st : Statement) (level : Nat) :
    introductions number ((st.inject level .pass).text config) = 0 :=
  introductions_injected (show Neutral "pass".toList by decide).signless level

theorem introduced_orPass : introduced config number (orPass st level pieces) = introduced config number pieces := by
  unfold orPass
  split
  · next empty =>
    rw [List.isEmpty_iff] at empty
    subst empty
    exact introductions_pass st level
  · rfl

theorem Guards.introduced_le (h : Guards st level pass guards pass') (config : IndentConfig) (number : Nat) :
    pass.next ≤ pass'.next ∧ introduced config number guards ≤ share number pass.next pass'.next := by
  cases h with
  | needless _ => exact ⟨Nat.le_refl _, Nat.zero_le _⟩
  | @placed limit _ _ =>
    have free := stemless_guardCall pass.next st.first limit
    refine ⟨Nat.le_succ _, ?_⟩
    calc introductions number ((st.inject level (.limitGuard pass.next limit)).text config) + 0
      _ = occurrences (guardOpening number) (Probe.guardCall (Probe.siteName pass.next) st.first limit) :=
        introductions_indented (fun c mem => (blank_render config level c mem).1) free
      _ ≤ if pass.next = number then 1 else 0 := occurrences_guardCall number pass.next st.first limit
      _ = share number pass.next (pass.next + 1) := (share_succ number pass.next).symm

theorem Guards.introduced_drawn (h : Guards st level pass.drawn guards pass') (config : IndentConfig) (number : Nat) :
    pass.next ≤ pass'.next ∧ share number pass.next (pass.next + 1) + introduced config number guards ≤
      share number pass.next pass'.next := by
  have ⟨le, bound⟩ := h.introduced_le config number
  refine ⟨Nat.le_of_succ_le le, ?_⟩
  rw [← share_add number (Nat.le_add_right pass.next 1) le]
  exact Nat.add_le_add_left bound _

/-! ## What a statement is made from -/

structure Sober (st : Statement) : Prop where
  indented : ∀ c ∈ st.indentation, isBlankChar c = true
  stemless : Stemless st.body
  mock : ∀ mock ∈ st.mock, Unmarked mock ∧ Unmarked st.body

namespace Sober

theorem value (sober : Sober st) {value : Text} (h : value <:+: st.body) : Borrows st.body (st.mock.getD value) := by
  cases given : st.mock with
  | none => exact borrows_of_within h
  | some mock => exact borrows_of_unmarked (sober.mock mock given).1

theorem assigned (sober : Sober st) (valueStart : Nat) :
    Borrows st.body (st.body.take valueStart ++ assignedValue st valueStart) := by
  unfold assignedValue
  cases given : st.mock with
  | none =>
    dsimp only
    rw [List.take_append_drop]
    exact borrows_of_within List.infix_rfl
  | some mock =>
    obtain ⟨free, unmarked⟩ := sober.mock mock given
    have whole : " (".toList ++ mock ++ ")".toList = ' ' :: ([] ++ '(' :: (mock ++ ')' :: [])) := by simp
    have nil : Unmarked [] := rfl
    dsimp only
    rw [whole]
    exact borrows_of_unmarked (unmarked_cons (by decide) (unmarked.of_within (List.take_prefix _ _).isInfix)
      (unmarked_cons (by decide) nil (unmarked_cons (by decide) free nil)))

theorem plain (sober : Sober st) : Borrows st.body (plainBody st) := by
  unfold plainBody
  cases given : st.mock with
  | none => exact borrows_of_within List.infix_rfl
  | some mock =>
    dsimp only
    split
    · exact borrows_of_within List.infix_rfl
    · exact (borrows_of_unmarked (sober.mock mock given).1).parenthesized

end Sober

theorem borrows_splices (h : Splices line arguments spliced) (last : Text) :
    Borrows (arguments ++ last) (spliced ++ last) := by
  have tag : '_' ∉ Probe.tag line := by simp [Probe.tag, not_mem_ofInt]
  intro part marker
  cases h with
  | @replaced first rest _ _ =>
    rw [List.append_assoc, List.append_assoc, marker.skip tag]
    exact occurrences_le_of_within (List.suffix_append _ _).isInfix part
  | @inserted first rest _ _ =>
    have comma : '_' ∉ ", ".toList := by decide
    rw [List.append_assoc (Probe.tag line), marker.skip tag, List.append_assoc, marker.skip comma]
  | @shown first rest _ _ _ =>
    have whole : Probe.tag line ++ ((" + str".toList ++ '(' :: (first ++ [')'])) ++ rest) ++ last =
        Probe.tag line ++ (" + str".toList ++ '(' :: (first ++ ')' :: (rest ++ last))) := by simp
    rw [whole, marker.skip tag, marker.skip (by decide), marker.opened, marker.cut (by decide), List.append_assoc]
    exact occurrences_add_le part first _

theorem borrows_splicedBody (construct : Construct.classify st.body = .ok (.printCall openParen closeParen)) :
    Borrows st.body (splicedBody st openParen closeParen) := by
  cases Construct.classify_ok construct with
  | printCall found =>
    obtain ⟨blanks, inner, close, behind, whole, rfl, rfl, blank, closed, -, -⟩ := Construct.print?_iff_shape.1 found
    have name : '_' ∉ "print".toList ++ blanks :=
      List.not_mem_append (by decide) fun mem => absurd (blank _ mem) (by decide)
    intro part marker
    rw [splicedBody_eq whole, whole, List.cons_append, marker.skip name, marker.skip name, marker.opened, marker.opened,
      List.append_assoc]
    exact borrows_splices (splices_splicedArguments st.first closed) (close :: behind) part marker

theorem introductions_own (sober : Sober st) (borrows : Borrows st.body text) (config : IndentConfig) (number : Nat) :
    introductions number ((st.own text).text config) ≤ occurrences (guardOpening number) st.body := by
  have own : introductions number ((st.own text).text config) = occurrences (guardOpening number) text :=
    introductions_indented sober.indented (borrows.stemless sober.stemless)
  exact own ▸ borrows _ (marker_guardOpening number)

theorem introductions_bind (sober : Sober st) (borrows : Borrows st.body text) (temp : Temp)
    (kept : temp.kind ≠ .mocked) (config : IndentConfig) (number : Nat) :
    introductions number ((st.bind temp text).text config) ≤
      share number temp.number (temp.number + 1) + occurrences (guardOpening number) text := by
  have bound : introductions number ((st.bind temp text).text config) =
      introductions number (temp.name ++ " = ".toList ++ text) :=
    introductions_blanks sober.indented number _
  rw [bound, share_succ]
  exact introductions_binding kept (borrows.stemless sober.stemless)

open Construct

/-! ## Headers -/

theorem occurrences_loop_le (shape : LoopShape code part body) (mark : Text) :
    occurrences mark (part ++ "in".toList) + occurrences mark (trim body) ≤ occurrences mark code := by
  have whole : code = (part ++ "in".toList) ++ (body ++ [':']) := by rw [shape.whole]; simp
  have inside := occurrences_le_of_within ((trim_within body).trans (List.prefix_append body [':']).isInfix) mark
  have both := occurrences_add_le mark (part ++ "in".toList) (body ++ [':'])
  rw [whole]
  omega

theorem introductions_loopPiece {inner : Text} (sober : Sober st) (shape : LoopShape st.body part inner)
    (number draw : Nat) :
    introductions number (Piece.text config (.loopHead st.indentation (part ++ "in ".toList) ⟨.iterated, draw⟩ st.first)) =
      occurrences (guardOpening number) (part ++ "in".toList) := by
  have free : Stemless (part ++ "in".toList) := fun kind =>
    (Nat.add_eq_zero_iff.1 (Nat.le_zero.1 (sober.stemless kind ▸ occurrences_loop_le shape kind.stem))).1
  have whole : Piece.text config (.loopHead st.indentation (part ++ "in ".toList) ⟨.iterated, draw⟩ st.first) =
      st.indentation ++ ((part ++ "in".toList) ++ ' ' :: (Temp.name ⟨.iterated, draw⟩ ++ [':'])) := by
    simp [Piece.text]
  rw [whole, introductions_blanks sober.indented, introductions_loopHead free (by rintro ⟨⟩)]

theorem Heads.introduced_le (h : Heads script st construct pass parts pass') (sober : Sober st)
    (suits : classify st.body = .ok construct ∨ ∃ keyword, construct = .blockHeader keyword) (config : IndentConfig)
    (number : Nat) :
    pass.next ≤ pass'.next ∧ introduced config number (parts.before ++ parts.header ++ parts.prologue) ≤
      occurrences (guardOpening number) st.body + share number pass.next pass'.next := by
  have heading : introductions number (st.heading.text config) = occurrences (guardOpening number) st.body :=
    introductions_indented sober.indented sober.stemless
  have enter (level : Nat) : introductions number ((st.inject level .enter).text config) = 0 :=
    introductions_injected (neutral_enter st.first).signless level
  cases h with
  | @loop head iterable keys _ _ guards marked guarded =>
    obtain ⟨le, guards⟩ := guarded.introduced_drawn config number
    obtain ⟨part, inner, shape, rfl, rfl⟩ : ∃ part inner, LoopShape st.body part inner ∧ head = part ++ "in ".toList ∧
        iterable = trim inner := by
      rcases suits with construct | ⟨keyword, ⟨⟩⟩
      cases classify_ok construct with
      | forHeader found => exact forHeader?_iff_shape.1 found
    have both := occurrences_loop_le shape (guardOpening number)
    have bound : introductions number ((st.bind ⟨.iterated, pass.next⟩ (trim inner)).text config) ≤
        share number pass.next (pass.next + 1) + occurrences (guardOpening number) (trim inner) :=
      introductions_bind sober (fun mark _ => (Nat.le_add_left _ _).trans (occurrences_loop_le shape mark)) _ (by rintro ⟨⟩)
        config number
    refine ⟨le, ?_⟩
    simp only [introduced_append, introduced, introduced_marks, introduced_interior,
      introductions_loopPiece sober shape, introductions_show st _ (Temp.neutral _).signless, enter]
    omega
  | definition marked guarded =>
    obtain ⟨le, guards⟩ := guarded.introduced_le config number
    have wordy := wordy_params (suits.resolve_right (by rintro ⟨_, ⟨⟩⟩))
    refine ⟨le, ?_⟩
    simp only [introduced_append, introduced, introduced_marks, introduced_interior, introduced_parameters wordy, heading]
    omega
  | @block keyword keys _ _ guards marked guarded =>
    obtain ⟨le, guards⟩ := guarded.introduced_le config number
    have probed : introduced config number
        (if Construct.isProbed keyword then [st.inject st.level (.probe none)] else []) = 0 := by
      split
      · exact introductions_report st st.level
      · rfl
    have entered : introduced config number
        (if Construct.isBranch keyword then [st.inject (st.level + 1) .enter] else []) = 0 := by
      split
      · exact enter (st.level + 1)
      · rfl
    refine ⟨le, ?_⟩
    simp only [introduced_append, introduced, introduced_marks, introduced_interior, probed, entered, heading]
    omega

/-! ## Statements -/

theorem Sober.inlineHead (sober : Sober st) (colon : Nat) : Sober (st.inlineHead colon) where
  indented := sober.indented
  stemless := (borrows_of_within (List.take_prefix _ _).isInfix).stemless sober.stemless
  mock := by rintro mock ⟨⟩

theorem trimLeft_drop_within (text : Text) (count : Nat) : trimLeft (text.drop count) <:+: text :=
  (show trimLeft _ <:+ _ from ⟨_, leadingBlanks_append_trimLeft _⟩).isInfix.trans (List.drop_suffix _ _).isInfix

theorem Sober.inlineBody (sober : Sober st) (config : IndentConfig) (colon : Nat) : Sober (st.inlineBody config colon) where
  indented := fun c mem => (blank_render config (st.level + 1) c mem).1
  stemless := (borrows_of_within (trimLeft_drop_within _ _)).stemless sober.stemless
  mock := fun mock given => ⟨(sober.mock mock given).1, (sober.mock mock given).2.of_within (trimLeft_drop_within _ _)⟩

theorem occurrences_inline_le (config : IndentConfig) (st : Statement) (colon : Nat) (mark : Text) :
    occurrences mark (st.inlineHead colon).body + occurrences mark (st.inlineBody config colon).body ≤
      occurrences mark st.body := by
  have both := occurrences_add_le mark (st.body.take (colon + 1)) (st.body.drop (colon + 1))
  have trimmed : occurrences mark (trimLeft (st.body.drop (colon + 1))) ≤ occurrences mark (st.body.drop (colon + 1)) :=
    occurrences_le_of_within (trimLeft_drop_within _ 0) mark
  rw [List.take_append_drop] at both
  exact (Nat.add_le_add_left trimmed _).trans both

theorem Guards.introduced_counted (h : Guards st level (pass.counted kind) guards pass') (config : IndentConfig)
    (number : Nat) : pass.next ≤ pass'.next ∧ introduced config number guards ≤ share number pass.next pass'.next :=
  h.introduced_le config number

theorem Dispatched.introduced_le (h : Dispatched script st pass step pass') (sober : Sober st) (config : IndentConfig)
    (number : Nat) :
    pass.next ≤ pass'.next ∧ introduced config number (step.pieces ++ step.prologue) ≤
      occurrences (guardOpening number) st.body + share number pass.next pass'.next := by
  induction h with
  | @augmented st pass pass' target operator valueStart _ construct guarded =>
    obtain ⟨wordy, symbols, -⟩ := wordy_augmented construct
    obtain ⟨le, guards⟩ : pass.next ≤ pass'.next ∧ _ := Guards.introduced_drawn guarded config number
    have borrows := (sober.value ((trim_within _).trans (List.drop_suffix valueStart _).isInfix)).parenthesized
    have value := borrows _ (marker_guardOpening number)
    have bound := introductions_bind sober borrows ⟨.augmented, pass.next⟩ (by rintro ⟨⟩) config number
    have update : introductions number ((st.inject st.level (.update target operator ⟨.augmented, pass.next⟩)).text config) =
        0 := introductions_injected (symbols.signless_update wordy _) st.level
    refine ⟨le, ?_⟩
    simp only [introduced_append, introduced, introduced_interior, update,
      introductions_show st _ (symbols.signless_shown wordy _)]
    dsimp only [Pass.counted] at *
    omega
  | @assigned st pass pass' kind target valueStart _ construct assigns guarded =>
    obtain ⟨le, guards⟩ := guarded.introduced_counted config number
    have own := introductions_own sober (sober.assigned valueStart) config number
    refine ⟨le, ?_⟩
    simp only [introduced_append, introduced, introduced_interior,
      introductions_show st _ (wordy_assigned construct assigns).signless]
    omega
  | @printed st pass pass' openParen closeParen _ construct guarded =>
    obtain ⟨le, guards⟩ := guarded.introduced_counted config number
    have own := introductions_own sober (borrows_splicedBody construct) config number
    refine ⟨le, ?_⟩
    simp only [introduced_append, introduced, introduced_interior]
    omega
  | @returned st pass pass' value _ construct given guarded =>
    obtain ⟨le, guards⟩ := guarded.introduced_counted config number
    have within : value <:+: st.body := by
      cases classify_ok construct with
      | returning _ => exact (trim_within _).trans (List.drop_suffix _ _).isInfix
    have borrows := (sober.value within).parenthesized
    have value := borrows _ (marker_guardOpening number)
    have bound := introductions_bind sober borrows ⟨.returned, pass'.next⟩ (by rintro ⟨⟩) config number
    have back : introductions number ((st.inject st.level (.giveBack (some ⟨.returned, pass'.next⟩))).text config) = 0 :=
      introductions_injected (neutral_giveBack _).signless st.level
    have shares := share_add number le (Nat.le_add_right pass'.next 1)
    refine ⟨Nat.le_succ_of_le le, ?_⟩
    simp only [introduced_append, introduced, introduced_interior, back,
      introductions_show st _ (Temp.neutral _).signless]
    dsimp only [Pass.drawn] at *
    omega
  | @ended st pass pass' value _ construct empty guarded =>
    obtain ⟨le, guards⟩ := guarded.introduced_counted config number
    have back : introductions number ((st.inject st.level (.giveBack none)).text config) = 0 :=
      introductions_injected (show Neutral "return".toList by decide).signless st.level
    refine ⟨le, ?_⟩
    simp only [introduced_append, introduced, introduced_interior, introductions_report, back]
    omega
  | opened construct opens heads body => exact heads.introduced_le sober (.inl construct) config number
  | openedEmpty construct opens heads empty =>
    obtain ⟨le, bound⟩ := heads.introduced_le sober (.inl construct) config number
    refine ⟨le, ?_⟩
    rwa [List.append_nil, introduced_append, introduced_orPass, ← introduced_append]
  | @inline st pass between pass' colon kind parts inner construct header heads body ih =>
    have suits : classify (st.inlineHead colon).body = .ok (inlineConstruct (st.inlineHead colon).body kind) ∨
        ∃ keyword, inlineConstruct (st.inlineHead colon).body kind = .blockHeader keyword := by
      rcases inlineConstruct_cases (st.inlineHead colon).body kind with same | same
      · exact .inl (by rw [same, header])
      · exact .inr ⟨_, same⟩
    obtain ⟨le, front⟩ : pass.next ≤ between.next ∧ _ :=
      heads.introduced_le (sober.inlineHead colon) suits config number
    obtain ⟨le', back⟩ := ih (sober.inlineBody script.indent colon)
    have parts := occurrences_inline_le script.indent st colon (guardOpening number)
    have shares := share_add number le le'
    refine ⟨le.trans le', ?_⟩
    simp only [introduced_append, introduced] at front back ⊢
    dsimp only [Pass.counted] at *
    omega
  | @ignored st pass pass' keyword _ construct guarded =>
    obtain ⟨le, guards⟩ := guarded.introduced_counted config number
    have own := introductions_own sober (borrows_of_within List.infix_rfl) config number
    refine ⟨le, ?_⟩
    simp only [introduced_append, introduced, introduced_interior]
    omega
  | @plain st pass pass' kind _ construct simple guarded =>
    obtain ⟨le, guards⟩ := guarded.introduced_counted config number
    have own := introductions_own sober sober.plain config number
    refine ⟨le, ?_⟩
    simp only [introduced_append, introduced, introduced_interior, introductions_report]
    omega

/-! ## Blocking calls -/

theorem occurrences_replaceSpans (number : Nat) (marker : Marker part) (free : Unmarked code)
    (enclosed : ∀ site, ∃ inner, value site = '(' :: (inner ++ [')']))
    (counted : ∀ site, occurrences part (value site) ≤ if site = number then 1 else 0) (spans : List Span)
    (cursor site : Nat) :
    occurrences part (replaceSpans code value cursor site spans) ≤ share number site (site + spans.length) := by
  induction spans generalizing cursor site with
  | nil =>
    rw [replaceSpans, marker.unmarked (free.of_within (List.drop_suffix _ _).isInfix)]
    exact Nat.zero_le _
  | cons span spans ih =>
    obtain ⟨inner, same⟩ := enclosed site
    have here := counted site
    have later := ih span.stop (site + 1)
    have shares := share_add number (Nat.le_add_right site 1) (Nat.le_add_right (site + 1) spans.length)
    have whole : slice code cursor span.start ++ value site ++ replaceSpans code value span.stop (site + 1) spans =
        slice code cursor span.start ++ '(' :: (inner ++ ')' :: replaceSpans code value span.stop (site + 1) spans) := by
      rw [same]
      simp
    rw [same, marker.opened, marker.closed, ← share_succ] at here
    rw [replaceSpans, whole, occurrences_append_of_root marker.root (severs_cons (by decide) _)
      (free.of_within (slice_within _ _ _)), marker.opened, marker.cut (by decide), List.length_cons,
      Nat.add_comm spans.length, ← Nat.add_assoc, ← shares]
    exact Nat.add_le_add here later

theorem unmarked_mockValue (free : ∀ mock ∈ directives.mock, Unmarked mock) : Unmarked (mockValue directives) := by
  unfold mockValue
  split
  · rfl
  · rfl
  · next mock _ given => exact free mock given

section

variable {directives : Directives} (free : Unmarked code) (mocks : ∀ mock ∈ directives.mock, Unmarked mock)
  (line callLimit : Int) (site : Nat)

include free mocks

theorem stemless_substituteBlocking : Stemless (substituteBlocking code line directives callLimit site).1 := by
  intro kind
  have none (number : Nat) : occurrences kind.stem (Probe.guardedValue (Probe.siteName number) line
      (directives.effectiveLimit callLimit) (mockValue directives)) = 0 := by
    rw [(marker_stem kind).guardedValue (unmarked_mockValue mocks), stemless_guardCall number line _ kind]
  -- No number that is drawn is as large as the next one.
  have bound := occurrences_replaceSpans (site + (blockingSpans code).length) (marker_stem kind) free
    (fun number => ⟨_, guardedValue_eq number line _ _⟩) (fun number => none number ▸ Nat.zero_le _)
    (blockingSpans code) 0 site
  exact Nat.le_zero.1 (bound.trans (by rw [share, if_neg (by omega)]))

theorem occurrences_substituteBlocking (number : Nat) :
    occurrences (guardOpening number) (substituteBlocking code line directives callLimit site).1 ≤
      share number site (site + (blockingSpans code).length) := by
  refine occurrences_replaceSpans number (marker_guardOpening number) free (fun number => ⟨_, guardedValue_eq number line _ _⟩)
    (fun other => ?_) (blockingSpans code) 0 site
  rw [(marker_guardOpening number).guardedValue (unmarked_mockValue mocks)]
  exact occurrences_guardCall number other line _

end

/-! ## Statements of a script -/

section

variable (free : ∀ text ∈ line :: rest, Unmarked text) (cursor : Int)

include free

theorem unmarked_lines : ∀ text ∈ (assemble cursor line rest).lines, Unmarked text := by
  rw [lines_assemble]
  rintro text mem
  rcases List.mem_cons.1 mem with rfl | taken
  · exact free _ List.mem_cons_self
  · exact free _ (List.mem_cons_of_mem _ (List.mem_of_mem_take taken))

theorem unmarked_text : Unmarked (assemble cursor line rest).text :=
  unmarked_joinLines (unmarked_lines free cursor)

theorem unmarked_body : Unmarked (assemble cursor line rest).body :=
  (unmarked_text free cursor).of_within ((trimLeft_drop_within _ 0).trans (code_prefix_text _).isInfix)

theorem unmarked_mock : ∀ mock ∈ (assemble cursor line rest).directives.mock, Unmarked mock := by
  intro mock given
  have final : Unmarked (assemble cursor line rest).final := unmarked_lines free cursor _ (by simp [LogicalStatement.lines])
  exact final.of_within ((Directives.mock_within given).trans (comment_within _))

theorem Stepped.introduced_le
    (h : Stepped script (assemble cursor line rest) (statementOf script (assemble cursor line rest) line after) pass
      step pass')
    (visible : isBlankLine line = false) (config : IndentConfig) (number : Nat) :
    pass.next ≤ pass'.next ∧ introduced config number (step.pieces ++ step.prologue) ≤
      share number pass.next pass'.next := by
  have mocks := unmarked_mock free cursor
  have unmarked := unmarked_body free cursor
  rw [← body_statementOf script cursor rest after visible] at unmarked
  have indented (c : Char) (mem : c ∈ leadingBlanks line) : isBlankChar c := isBlankChar_of_mem_leadingBlanks mem
  cases h with
  | decorator construct =>
    have text : introductions number (assemble cursor line rest).text = 0 := (unmarked_text free cursor).introductions_eq
    refine ⟨Nat.le_refl _, ?_⟩
    simp only [List.append_nil, introduced, Piece.text, text]
    exact Nat.zero_le _
  | kept construct other free dispatched =>
    have sober : Sober (statementOf script (assemble cursor line rest) line after) :=
      ⟨indented, unmarked.stemless, fun mock given => ⟨mocks mock given, unmarked⟩⟩
    obtain ⟨le, bound⟩ := dispatched.introduced_le sober config number
    rw [(marker_guardOpening number).unmarked unmarked, Nat.zero_add] at bound
    exact ⟨le, bound⟩
  | replaced construct other blocking dispatched =>
    have sober : Sober ((statementOf script (assemble cursor line rest) line after).replaced script pass.next) :=
      ⟨indented, stemless_substituteBlocking unmarked mocks _ _ _, by rintro mock ⟨⟩⟩
    obtain ⟨le, bound⟩ := dispatched.introduced_le sober config number
    have sites := occurrences_substituteBlocking unmarked mocks (assemble cursor line rest).first script.callLimit pass.next
      number
    have shares := share_add number (Nat.le_add_right pass.next _) le
    exact ⟨(Nat.le_add_right _ _).trans le, shares ▸ bound.trans (Nat.add_le_add_right sites _)⟩

/-! ## Mocked functions -/

theorem introductions_renamed (mocks : MocksDef (statementOf script (assemble cursor line rest) line after) mocked)
    (visible : isBlankLine line = false) (shadow number : Nat) :
    introductions number (renameDef mocked.name (Temp.name ⟨.mocked, shadow⟩) none (assemble cursor line rest).text) ≤
      share number shadow (shadow + 1) := by
  have indented (c : Char) (mem : c ∈ leadingBlanks line) : isBlankChar c := isBlankChar_of_mem_leadingBlanks mem
  obtain ⟨behind, shape⟩ := mocks.shape
  rw [body_statementOf script cursor rest after visible] at shape
  obtain ⟨tail, text⟩ := code_prefix_text (assemble cursor line rest)
  rw [← leadingBlanks_append_body_assemble cursor rest visible] at text
  have unmarked : Unmarked (behind ++ tail) := by
    obtain ⟨blanks, whole, -⟩ := shape.whole
    have ends : behind ++ tail <:+ (assemble cursor line rest).text :=
      ⟨leadingBlanks line ++ "def".toList ++ blanks ++ mocked.name, by rw [← text, whole]; simp only [List.append_assoc]⟩
    exact (unmarked_text free cursor).of_within ends.isInfix
  rw [← text, shape.renameDef_eq indented, List.append_assoc, introductions_blanks indented, List.append_assoc, share_succ]
  exact introductions_shadow unmarked (shape.not_isWordChar tail)

theorem MocksDef.introduced_le
    (mocks : MocksDef (statementOf script (assemble cursor line rest) line after) mocked)
    (guarded : Guards (statementOf script (assemble cursor line rest) line after)
      ((statementOf script (assemble cursor line rest) line after).level + 1) (pass.counted kind) guards pass')
    (visible : isBlankLine line = false) (unmarked : ∀ text ∈ block, Unmarked text) (body : List Piece)
    (config : IndentConfig) (number : Nat) :
    pass.next ≤ pass'.next + 1 ∧ introduced config number (mockedPieces config (assemble cursor line rest)
        (statementOf script (assemble cursor line rest) line after) block mocked ⟨.mocked, pass'.next⟩ guards body) ≤
      share number pass.next (pass'.next + 1) + introduced config number body := by
  obtain ⟨le, guards⟩ := guarded.introduced_counted config number
  have header (first last : Int) :
      introductions number (Piece.text config (.header (assemble cursor line rest).text first last)) = 0 :=
    (unmarked_text free cursor).introductions_eq
  have renamed (first last : Int) : introductions number (Piece.text config
      (.header (renameDef mocked.name (Temp.name ⟨.mocked, pass'.next⟩) none (assemble cursor line rest).text) first last)) ≤
        share number pass'.next (pass'.next + 1) :=
    introductions_renamed free cursor mocks visible pass'.next number
  have arguments := unmarked_mock free cursor mocked.arguments mocks.mock
  generalize statementOf script (assemble cursor line rest) line after = st at *
  have call : introductions number ((st.inject st.level (.callMock ⟨.mocked, pass'.next⟩ mocked.arguments)).text config) =
      0 :=
    (introductions_blanks (fun c mem => (blank_render config _ c mem).1) number _).trans
      (introductions_callMock arguments pass'.next)
  have written : introduced config number (writtenBody config st block) = 0 := by
    unfold writtenBody
    split
    · refine introduced_eq_zero fun piece mem => ?_
      obtain ⟨⟨text, offset⟩, indexed, rfl⟩ := List.mem_map.1 mem
      exact (unmarked text (List.fst_mem_of_mem_zipIdx indexed)).introductions_eq
    · exact introductions_pass st _
  have shares := share_add number le (Nat.le_add_right pass'.next 1)
  have renamed := renamed st.first st.last
  simp only [mockedPieces, introduced_append, introduced, header, written, call]
  omega

end

/-! ## Whole runs -/

theorem introduced_placePrologue (documents : Bool) (pending pieces : List Piece) :
    introduced config number (placePrologue documents pending pieces) =
      introduced config number pending + introduced config number pieces := by
  unfold placePrologue
  split
  · rw [introduced_append, Nat.add_comm]
  · rw [introduced_append]

theorem introduced_blankPieces (cursor : Int) (floor level : Nat) (after : List Text) :
    introduced config number (blankPieces script cursor floor level after) = 0 := by
  refine introduced_eq_zero fun piece mem => ?_
  obtain ⟨level, -, rfl⟩ := List.mem_map.1 mem
  exact introductions_injected (neutral_bare cursor).signless level

theorem introduced_mockedPrologue (mocks : MocksDef st mocked) :
    introduced config number (mockedPrologue st mocked) = 0 := by
  rw [mockedPrologue, introduced_append, introduced_parameters (wordy_params mocks.construct), introduced_interior]

theorem Runs.introduced_le (run : Runs script floor level pending cursor lines pass pieces pass') (nonneg : 0 ≤ cursor)
    (free : ∀ line ∈ lines, Unmarked line) (number : Nat) :
    pass.next ≤ pass'.next ∧ introduced script.indent number pieces ≤
      introduced script.indent number pending + share number pass.next pass'.next := by
  induction run with
  | done => exact ⟨Nat.le_refl _, Nat.le_add_right _ _⟩
  | hoisted hoisted _ ih =>
    obtain ⟨le, later⟩ := ih (by omega) (forall_mem_drop free 0)
    rw [introduced, Nat.zero_add] at later
    rw [introduced_append]
    exact ⟨le, Nat.add_le_add_left later _⟩
  | blank _ blank _ ih =>
    obtain ⟨le, later⟩ := ih (by omega) (forall_mem_drop free 0)
    rw [introduced, Nat.zero_add] at later
    rw [introduced_append, introduced_append, introduced_blankPieces, Nat.add_zero]
    exact ⟨le, Nat.add_le_add_left later _⟩
  | statement kept visible found unmocked stepped _ ih =>
    obtain rfl := assemble_eq_of_found nonneg found
    obtain ⟨le, here⟩ := stepped.introduced_le free _ visible script.indent number
    obtain ⟨le', later⟩ := ih (past_nonneg nonneg) (forall_mem_drop free _)
    have shares := share_add number le le'
    rw [introduced_append] at here
    rw [introduced_append, introduced_placePrologue]
    exact ⟨le.trans le', by omega⟩
  | @mocked _ _ _ _ body _ _ _ _ _ _ _ _ block _ _ _ _ kept visible found same mocks stops cut guarded filled _ _ inner
      ih =>
    obtain rfl := assemble_eq_of_found nonneg found
    subst same
    have unmarked : ∀ text ∈ block, Unmarked text :=
      fun text mem => forall_mem_drop free _ text (List.mem_of_mem_take (cut ▸ mem))
    obtain ⟨le, here⟩ := mocks.introduced_le free _ guarded visible unmarked body script.indent number
    obtain ⟨le', body⟩ := inner (past_nonneg nonneg) unmarked
    obtain ⟨le'', later⟩ := ih (Int.add_nonneg (past_nonneg nonneg) (Int.natCast_nonneg _))
      fun text mem => forall_mem_drop free _ text (List.mem_of_mem_drop mem)
    have shares := share_add number le le'
    have shares' := share_add number (le.trans le') le''
    rw [introduced_mockedPrologue mocks] at body
    rw [introduced] at later
    rw [introduced_append, introduced_placePrologue]
    exact ⟨(le.trans le').trans le'', by dsimp only [Pass.drawn] at *; omega⟩
  | @mockedEmpty _ _ _ _ _ _ _ _ _ _ _ _ block _ _ _ kept visible found same mocks stops cut guarded empty _ ih =>
    obtain rfl := assemble_eq_of_found nonneg found
    subst same
    have unmarked : ∀ text ∈ block, Unmarked text :=
      fun text mem => forall_mem_drop free _ text (List.mem_of_mem_take (cut ▸ mem))
    generalize filler : orPass _ _ (mockedPrologue _ _) = body
    obtain ⟨le, here⟩ := mocks.introduced_le free _ guarded visible unmarked body script.indent number
    rw [← filler, introduced_orPass, introduced_mockedPrologue mocks, filler] at here
    obtain ⟨le', later⟩ := ih (Int.add_nonneg (past_nonneg nonneg) (Int.natCast_nonneg _))
      fun text mem => forall_mem_drop free _ text (List.mem_of_mem_drop mem)
    have shares := share_add number le le'
    rw [introduced] at later
    rw [introduced_append, introduced_placePrologue]
    exact ⟨le.trans le', by dsimp only [Pass.drawn] at *; omega⟩

/-! ## Whole programs -/

theorem splitLines_within (text : Text) :
    ∃ first lines, splitLines text = first :: lines ∧ first <+: text ∧ ∀ line ∈ lines, line <:+: text := by
  have behind {rest : Text} (before : Text) (ih : ∃ first lines, splitLines rest = first :: lines ∧ first <+: rest ∧
      ∀ line ∈ lines, line <:+: rest) : ∀ line ∈ splitLines rest, line <:+: before ++ rest := by
    obtain ⟨first, lines, whole, start, inside⟩ := ih
    rw [whole, List.forall_mem_cons]
    have ends := (List.suffix_append before rest).isInfix
    exact ⟨start.isInfix.trans ends, fun line mem => (inside line mem).trans ends⟩
  induction text using splitLines.induct with
  | case1 => exact ⟨[], [], rfl, List.prefix_rfl, by simp⟩
  | case2 rest ih => exact ⟨[], splitLines rest, splitLines.eq_2 _, List.nil_prefix, behind ['\r', '\n'] ih⟩
  | case3 rest _ ih =>
    exact ⟨[], splitLines rest, by rw [splitLines.eq_3 _ _ (by simp), if_pos rfl], List.nil_prefix, behind ['\n'] ih⟩
  | case4 c rest notReturn other ih =>
    obtain ⟨first, lines, whole, start, inside⟩ := ih
    refine ⟨c :: first, lines, by rw [splitLines.eq_3 _ _ notReturn, if_neg other, whole]; rfl, ?_, ?_⟩
    · exact List.cons_prefix_cons.2 ⟨rfl, start⟩
    · exact fun line mem => List.infix_cons (inside line mem)

theorem unmarked_splitLines (free : ¬ clemRoot <:+: source) : ∀ line ∈ splitLines source, Unmarked line := by
  have unmarked : Unmarked source := (occurrences_eq_zero_iff (by decide)).2 free
  obtain ⟨first, lines, whole, start, inside⟩ := splitLines_within source
  rw [whole, List.forall_mem_cons]
  exact ⟨unmarked.of_within start.isInfix, fun line mem => unmarked.of_within (inside line mem)⟩

/-- Every number labels at most one thing in an instrumented program: one call site, or one name that is put in. -/
theorem labels_introduced_once {source : Text} {indent : IndentConfig} {callLimit : Int} {program : Program}
    (free : ¬ "_clem_".toList <:+: source) (h : instrument source indent callLimit = .ok program) (number : Nat) :
    introductions number (joinLines (program.body.map GeneratedLine.text)) ≤ 1 := by
  obtain ⟨pieces, pass, run, -, body⟩ := instrument_ok h
  obtain ⟨-, bound⟩ := (range_ok run).introduced_le (Int.le_refl 0) (unmarked_splitLines free) number
  rw [introduced, Nat.zero_add] at bound
  rw [body, joinLines_renderPieces, introductions_joinLines]
  exact bound.trans (share_le_one _ _ _)

def labelledSource : Text :=
  "def f(a):  # mock(1) limit(3)\n    for b in [input()]: a += b\n    return a\nprint(input(), input())".toList

theorem labels_introduced_once_sample :
    ¬ "_clem_".toList <:+: labelledSource ∧ ∃ program, instrument labelledSource .standard 100 = .ok program ∧
      (∀ number, introductions number (joinLines (program.body.map GeneratedLine.text)) ≤ 1) ∧
      ∀ number ∈ List.range' 1 8, introductions number (joinLines (program.body.map GeneratedLine.text)) = 1 := by
  have free : ¬ "_clem_".toList <:+: labelledSource := by
    rw [← occurrences_eq_zero_iff (by decide)]
    decide +kernel
  have once : (instrument labelledSource .standard 100).toOption.any (fun program => ∀ number ∈ List.range' 1 8,
      introductions number (joinLines (program.body.map GeneratedLine.text)) = 1) := by
    decide +kernel
  cases run : instrument labelledSource .standard 100 with
  | error cause =>
    rw [run] at once
    cases once
  | ok program =>
    rw [run] at once
    exact ⟨free, program, rfl, labels_introduced_once free run, of_decide_eq_true once⟩

end Instrument

end LineProbe
