import LineProbe.Proofs.Chains

/-!
# Imports from the future

An import from `__future__` has to stand before any other code, so its line is taken out of the script and placed in
front of the support code.
-/

namespace LineProbe

open Text Construct

/-! ## The words of an import -/

inductive FutureFront : Text → Prop where
  | intro {blanks blanks' : Text} (spaced : blanks ≠ []) (blank : ∀ c ∈ blanks, isBlankChar c = true)
    (spaced' : blanks' ≠ []) (blank' : ∀ c ∈ blanks', isBlankChar c = true) :
    FutureFront ("from" ++ (blanks ++ ("__future__" ++ (blanks' ++ "import"))))

def ImportsFuture (text : Text) : Prop :=
  ∃ front rest, FutureFront front ∧ text = front ++ rest ∧ ∀ c ∈ rest.head?, isWordChar c = false

theorem wholeWordAt_zero :
    wholeWordAt text word 0 ↔ ∃ rest, text = word ++ rest ∧ ∀ c ∈ rest.head?, isWordChar c = false := by
  have behind (rest : Text) : wordCharAt (word ++ rest) (0 + word.length) = rest.head?.any isWordChar := by
    rw [wordCharAt, Nat.zero_add, List.getElem?_append_right (Nat.le_refl _), Nat.sub_self, List.head?_eq_getElem?]
  constructor
  · intro h
    simp only [wholeWordAt, List.drop_zero, Bool.and_eq_true, Bool.not_eq_true'] at h
    obtain ⟨⟨starts, -⟩, ends⟩ := h
    obtain ⟨rest, rfl⟩ := startsWith_eq_true starts
    rw [behind] at ends
    refine ⟨rest, rfl, fun c head => ?_⟩
    rwa [head, Option.any_some] at ends
  · rintro ⟨rest, rfl, ends⟩
    have starts : startsWith (word ++ rest) word := List.isPrefixOf_iff_prefix.2 (List.prefix_append _ _)
    have stops : rest.head?.any isWordChar = false := by
      cases found : rest.head? with
      | none => rfl
      | some c => exact ends c found
    simp only [wholeWordAt, List.drop_zero, starts, behind, stops]
    rfl

theorem Instrument.isFutureImport_iff {line : Text} :
    isFutureImport line ↔ ImportsFuture line ∧ findChar? line '(' = none := by
  simp only [isFutureImport, Bool.and_eq_true, Option.isNone_iff_eq_none]
  refine and_congr_left fun _ => ?_
  constructor
  · intro imports
    obtain ⟨_, found⟩ := Option.isSome_iff_exists.1 imports
    simp only [bind, Option.bind_eq_some_iff, Option.ite_none_right_eq_some] at found
    obtain ⟨rest, from_, rest', future, import_, -⟩ := found
    obtain ⟨blanks, rfl, spaced, blank⟩ := afterSpacedWord?_spec from_
    obtain ⟨blanks', rfl, spaced', blank'⟩ := afterSpacedWord?_spec future
    obtain ⟨tail, rfl, ends⟩ := wholeWordAt_zero.1 import_
    exact ⟨_, tail, .intro spaced blank spaced' blank', by simp only [List.append_assoc], ends⟩
  · rintro ⟨_, rest, ⟨spaced, blank, spaced', blank'⟩, rfl, ends⟩
    simp only [List.append_assoc]
    rw [afterSpacedWord?_append spaced blank (by rintro c ⟨⟩; decide)]
    simp only [bind, Option.bind_some]
    rw [afterSpacedWord?_append spaced' blank' (by rintro c ⟨⟩; decide)]
    simp only [Option.bind_some]
    rw [if_pos (wholeWordAt_zero.2 ⟨rest, rfl, ends⟩)]
    rfl

namespace FutureFront

theorem quiet (h : FutureFront front) : ∀ c ∈ front, isQuiet c := by
  cases h with
  | intro _ blank _ blank' =>
    have spaces {blanks : Text} (blank : ∀ c ∈ blanks, isBlankChar c) (c : Char) (mem : c ∈ blanks) :
        isQuiet c := isQuiet_of_isBlankChar (blank c mem)
    simp only [List.forall_mem_append]
    exact ⟨by decide, spaces blank, by decide, spaces blank', by decide⟩

theorem getLast? (h : FutureFront front) : front.getLast? = some 't' := by
  cases h with
  | intro =>
    simp only [List.getLast?_append]
    rfl

theorem append_of_prefix (h : FutureFront front) (whole : front ++ rest = code ++ (blanks ++ comment))
    (blank : ∀ c ∈ blanks, isBlankChar c) (kind : comment = [] ∨ ∃ more, comment = '#' :: more) :
    ∃ part, code = front ++ part ∧ rest = part ++ (blanks ++ comment) := by
  rcases List.append_eq_append_iff.1 whole with ⟨part, rfl, rfl⟩ | ⟨part, rfl, behind⟩
  · exact ⟨part, rfl, rfl⟩
  · by_cases empty : part = []
    · subst empty
      exact ⟨[], by simp, by simpa using behind.symm⟩
    · -- What is left of the import would end in a letter, but it is white space.
      have last : 't' ∈ part := by
        have last := h.getLast?
        rw [List.getLast?_append_of_ne_nil _ empty] at last
        exact List.mem_of_getLast? last
      have spaces : ∀ c ∈ part, isBlankChar c := by
        rcases List.append_eq_append_iff.1 behind with ⟨cut, rfl, comment_⟩ | ⟨cut, rfl, -⟩
        · cases cut with
          | nil => simpa using blank
          | cons c cut =>
            rcases kind with rfl | ⟨more, rfl⟩
            · cases comment_
            · obtain ⟨rfl, -⟩ := List.cons.inj comment_
              exact absurd (h.quiet '#' (by simp)) (by decide)
        · exact fun c mem => blank c (List.mem_append_left _ mem)
      exact absurd (spaces 't' last) (by decide)

end FutureFront

theorem before_of_quiet (first : Int) (rest : List Text) (oneLine : '\n' ∉ line) (quiet : ∀ c ∈ line, isQuiet c) :
    (assemble first line rest).before = [] := by
  unfold assemble
  cases rest with
  | nil => rfl
  | cons next rest =>
    have stops : continues (scan .closed line) (0 + (scan .closed line).delta) line = false := by
      rw [continues_eq oneLine]
      change (Reader.start.run line).keepsOpen = false
      rw [Reader.run_start_quiet quiet]
      rfl
    rw [assembleFrom]
    dsimp only
    rw [stops]
    rfl

theorem importsFuture_code (first : Int) (rest : List Text) (oneLine : '\n' ∉ line) :
    ImportsFuture (assemble first line rest).code ↔ ImportsFuture line := by
  have shorten {part tail : Text} (ends : ∀ c ∈ (part ++ tail).head?, isWordChar c = false) :
      ∀ c ∈ part.head?, isWordChar c = false := by
    intro c head
    exact ends c (by rw [List.head?_append, head]; rfl)
  have extend {part tail : Text} (ends : ∀ c ∈ part.head?, isWordChar c = false)
      (ends' : ∀ c ∈ tail.head?, isWordChar c = false) : ∀ c ∈ (part ++ tail).head?, isWordChar c = false := by
    cases part with
    | nil => exact ends'
    | cons c part => exact ends
  rcases code_cases first line rest with ⟨blanks, comment, whole, blank, kind⟩ | ⟨several, more, code⟩
  · constructor
    · rintro ⟨front, tail, isFront, same, ends⟩
      refine ⟨front, tail ++ (blanks ++ comment), isFront, ?_, extend ends (not_word_of_comment blank kind)⟩
      rw [← List.append_assoc, ← same, ← whole]
    · rintro ⟨front, tail, isFront, same, ends⟩
      obtain ⟨part, code, rfl⟩ := isFront.append_of_prefix (same.symm.trans whole) blank kind
      exact ⟨front, part, isFront, code, shorten ends⟩
  · rw [code]
    constructor
    · rintro ⟨front, tail, isFront, same, ends⟩
      rcases List.append_eq_append_iff.1 same with ⟨part, rfl, -⟩ | ⟨part, rfl, rfl⟩
      · -- A line that ends within the words of the import does not go on.
        have quiet := isFront.quiet
        rw [List.forall_mem_append] at quiet
        exact absurd (before_of_quiet first rest oneLine quiet.1) several
      · exact ⟨front, part, isFront, rfl, shorten ends⟩
    · rintro ⟨front, tail, isFront, rfl, ends⟩
      exact ⟨front, tail ++ '\n' :: more, isFront, by rw [List.append_assoc], extend ends (by rintro c ⟨⟩; decide)⟩

/-! ## Statements of a script -/

theorem LinesFrom.getElem? (h : LinesFrom script index (line :: rest)) : script[index.toNat]? = some line := by
  rw [← List.head?_drop, h.here]
  rfl

theorem first_assemble (first : Int) (line : Text) (rest : List Text) : (assemble first line rest).first = first := by
  rw [assemble, first_assembleFrom]

theorem of_mem_statementsFrom (here : LinesFrom script index lines) (mem : source ∈ statementsFrom script index lines) :
    index ≤ source.first ∧ ∃ line rest, LinesFrom script source.first (line :: rest) ∧ isBlankLine line = false ∧
      assemble source.first line rest = source := by
  induction size : lines.length using Nat.strongRecOn generalizing index lines with
  | ind size_ ih =>
    subst size
    cases found : statementsFrom script index lines with
    | nil =>
      rw [found] at mem
      cases mem
    | cons first later =>
      obtain ⟨skipped, line, rest, rfl, -, visible, there, rfl, left⟩ := exists_of_statementsFrom_cons here found
      rw [found] at mem
      rcases List.mem_cons.1 mem with rfl | mem
      · rw [first_assemble]
        exact ⟨by omega, line, rest, there, visible, rfl⟩
      · have last := last_assemble (index + skipped.length) line rest
        have shorter : (rest.drop (assemble (index + skipped.length) line rest).extent).length <
            (skipped ++ line :: rest).length := by
          simp only [List.length_drop, List.length_append, List.length_cons]
          omega
        obtain ⟨order, known⟩ := ih _ shorter there.behind (left ▸ mem) rfl
        exact ⟨by omega, known⟩

namespace Instrument

/-! ## Hoisted statements -/

theorem not_reported_of_within (within : ∀ piece ∈ pieces, piece.Within config first stop)
    (outside : index < first ∨ stop ≤ index) : ¬ Reported config pieces index := by
  rintro ⟨piece, mem, line, inside, same⟩
  obtain ⟨origin, known, low, high⟩ := within piece mem line inside
  cases same.symm.trans known
  omega

theorem not_reported_placePrologue (documents : Bool) (before : ¬ Reported config pending index)
    (own : ¬ Reported config pieces index) : ¬ Reported config (placePrologue documents pending pieces) index := by
  unfold placePrologue
  split <;> rw [reported_append] <;> simp [before, own]

theorem Turned.unreported (h : Turned script floor level cursor line rest now) (nonneg : 0 ≤ cursor)
    (order : now.next ≤ index) :
    ¬ Reported script.indent now.pieces index ∧ ¬ Reported script.indent now.prologue index := by
  have within := h.within nonneg
  rw [List.forall_mem_append] at within
  exact ⟨not_reported_of_within within.1 (.inr order), not_reported_of_within within.2 (.inr order)⟩

structure Waits (script : Script) (source : LogicalStatement) (cursor : Int) (lines : List Text) : Prop where
  hoisted : script.hoisted.contains source.first = true
  here : LinesFrom script.lines cursor lines
  single : ∀ other ∈ statementsFrom script.lines cursor lines, other.first ≤ source.first →
    script.hoisted.contains other.first = true → other.last = other.first
  mem : source ∈ statementsFrom script.lines cursor lines

namespace Waits

theorem order (h : Waits script source cursor lines) : cursor ≤ source.first :=
  (of_mem_statementsFrom h.here h.mem).1

theorem blank (h : Waits script source cursor (line :: rest)) (blank : isBlankLine line) :
    Waits script source (cursor + 1) rest := by
  obtain ⟨hoisted, here, single, mem⟩ := h
  rw [statementsFrom_blank blank] at single mem
  exact ⟨hoisted, here.next, single, mem⟩

theorem behind (h : Waits script source cursor (line :: rest)) (visible : isBlankLine line = false) :
    assemble cursor line rest = source ∨
      Waits script source ((assemble cursor line rest).last + 1) (Instrument.behind (assemble cursor line rest) rest) := by
  obtain ⟨hoisted, here, single, mem⟩ := h
  rw [statementsFrom_visible here visible] at single mem
  rcases List.mem_cons.1 mem with same | mem
  · exact .inl same.symm
  · exact .inr ⟨hoisted, here.behind, (List.forall_mem_cons.1 single).2, mem⟩

theorem behind_kept (h : Waits script source cursor (line :: rest)) (visible : isBlankLine line = false)
    (kept : script.hoisted.contains cursor = false) :
    Waits script source ((assemble cursor line rest).last + 1) (Instrument.behind (assemble cursor line rest) rest) := by
  rcases h.behind visible with rfl | later
  · have hoisted := h.hoisted
    rw [first_assemble, kept] at hoisted
    cases hoisted
  · exact later

theorem behind_hoisted (h : Waits script source cursor (line :: rest)) (visible : isBlankLine line = false)
    (hoisted : script.hoisted.contains cursor) :
    assemble cursor line rest = source ∨ Waits script source (cursor + 1) rest := by
  have first := first_assemble cursor line rest
  have last := last_assemble cursor line rest
  have among : assemble cursor line rest ∈ statementsFrom script.lines cursor (line :: rest) := by
    rw [statementsFrom_visible h.here visible]
    exact List.mem_cons_self
  have alone := h.single _ among (first.symm ▸ h.order) (first.symm ▸ hoisted)
  have extent : (assemble cursor line rest).extent = 0 := by
    rw [extent_assemble]
    omega
  refine (h.behind visible).imp id fun later => ?_
  rwa [alone, first, Instrument.behind, extent, List.drop_zero] at later

theorem cut {level count : Nat} {lines : List Text} (h : Waits script source cursor lines) (flush : script.Flush)
    (cut : BlockCut script level cursor lines count) : Waits script source (cursor + count) (lines.drop count) := by
  obtain ⟨hoisted, here, single, mem⟩ := h
  obtain ⟨-, line, rest, there, visible, same⟩ := of_mem_statementsFrom here mem
  have left : LinesFrom script.lines (cursor + count) (lines.drop count) := by
    have nonneg := here.nonneg
    refine ⟨by omega, ?_⟩
    rw [show (cursor + (count : Int)).toNat = cursor.toNat + count by omega, ← List.drop_drop, here.here]
  rw [statementsFrom, cut.heads, List.filterMap_append] at single mem
  rw [List.forall_mem_append] at single
  refine ⟨hoisted, left, single.2, ?_⟩
  rcases List.mem_append.1 mem with inside | outside
  · obtain ⟨head, known, kept⟩ := List.mem_filterMap.1 inside
    cases head with
    | error fault => cases kept
    | ok head =>
      obtain ⟨position, text⟩ := head
      dsimp only at kept
      rw [Option.ite_none_left_eq_some, Option.some.injEq] at kept
      obtain ⟨visible', kept⟩ := kept
      have opening : text = line := by rw [← opening_assemble position text, kept, ← same, opening_assemble]
      subst opening
      have flat := flush _ hoisted text there.getElem?
      rcases cut.inside position text known with blank | deeper
      · exact absurd blank visible'
      · omega
  · exact outside

end Waits

theorem Runs.unreported {pass : Pass} (flush : script.Flush)
    (run : Runs script floor level pending cursor lines pass pieces pass')
    (waits : Waits script source cursor lines) (before : ¬ Reported script.indent pending source.first) :
    ¬ Reported script.indent pieces source.first := by
  have none_ : ¬ Reported script.indent [] source.first := by simp [Reported]
  induction run with
  | done =>
    have mem := waits.mem
    rw [statementsFrom_nil] at mem
    cases mem
  | @hoisted _ _ _ _ cursor line rest _ _ skipped run ih =>
    have nonneg := waits.here.nonneg
    rw [reported_append]
    refine not_or.2 ⟨before, ?_⟩
    cases blank : isBlankLine line with
    | true => exact ih (waits.blank blank) none_
    | false =>
      rcases waits.behind_hoisted blank skipped with rfl | waits
      · rw [first_assemble]
        refine not_reported_of_within (originsWithin script rest.length run (Nat.le_refl _) (by omega) (Int.le_refl _)
          (Int.le_refl _) (by simp)) (.inl (by omega))
      · exact ih waits none_
  | @blank floor level _ _ cursor _ rest _ _ _ blank run ih =>
    have nonneg := waits.here.nonneg
    have waits := waits.blank blank
    have own := (Turned.blank blank : Turned script floor level cursor _ rest _).unreported nonneg waits.order
    rw [reported_append, reported_append]
    exact not_or.2 ⟨not_or.2 ⟨before, own.1⟩, ih waits none_⟩
  | @statement floor level _ _ _ _ _ _ _ _ _ _ kept visible found unmocked stepped run ih =>
    have nonneg := waits.here.nonneg
    have turned : Turned script floor level _ _ _ _ := .statement found stepped
    obtain rfl := assemble_eq_of_found nonneg found
    have waits := waits.behind_kept visible kept
    obtain ⟨own, prologue⟩ := turned.unreported nonneg waits.order
    rw [reported_append]
    exact not_or.2 ⟨not_reported_placePrologue _ before own, ih waits prologue⟩
  | @mocked floor level _ _ _ _ _ _ _ _ _ _ _ _ _ _ _ _ kept visible found same mocks stops cut guarded filled inner
      run _ ih =>
    have nonneg := waits.here.nonneg
    subst cut
    have turned : Turned script floor level _ _ _ _ := .mocked found same mocks stops rfl guarded (.filled filled (by
      rw [same] at inner ⊢; exact inner))
    obtain rfl := assemble_eq_of_found nonneg found
    subst same
    have waits := (waits.behind_kept visible kept).cut flush
      (blockEnd?_cut (waits.behind_kept visible kept).here.nonneg stops)
    obtain ⟨own, -⟩ := turned.unreported nonneg waits.order
    rw [reported_append]
    exact not_or.2 ⟨not_reported_placePrologue _ before own, ih waits none_⟩
  | @mockedEmpty floor level _ _ _ _ _ _ _ _ _ _ _ _ _ _ kept visible found same mocks stops cut guarded empty run ih =>
    have nonneg := waits.here.nonneg
    subst cut
    have turned : Turned script floor level _ _ _ _ := .mocked found same mocks stops rfl guarded (.empty empty)
    obtain rfl := assemble_eq_of_found nonneg found
    subst same
    have waits := (waits.behind_kept visible kept).cut flush
      (blockEnd?_cut (waits.behind_kept visible kept).here.nonneg stops)
    obtain ⟨own, -⟩ := turned.unreported nonneg waits.order
    rw [reported_append]
    exact not_or.2 ⟨not_reported_placePrologue _ before own, ih waits none_⟩

/-! ## Programs -/

theorem mem_futureImports : index ∈ futureImports lines ↔ ∃ line, lines[index]? = some line ∧ isFutureImport line := by
  constructor
  · intro mem
    obtain ⟨⟨line, place⟩, there, same⟩ := List.mem_filterMap.1 mem
    rw [Option.ite_none_right_eq_some, Option.some.injEq] at same
    obtain ⟨imports, rfl⟩ := same
    exact ⟨line, List.mem_zipIdx_iff_getElem?.1 there, imports⟩
  · rintro ⟨line, there, imports⟩
    exact List.mem_filterMap.2 ⟨(line, index), List.mem_zipIdx_iff_getElem?.2 there, if_pos imports⟩

theorem contains_hoisted_iff (nonneg : 0 ≤ index) (there : (splitLines source)[index.toNat]? = some line) :
    (Script.ofSource source indent callLimit).hoisted.contains index ↔ isFutureImport line := by
  rw [List.contains_iff_mem, Script.ofSource, List.mem_map]
  constructor
  · rintro ⟨number, mem, rfl⟩
    obtain ⟨text, there', imports⟩ := mem_futureImports.1 mem
    cases there.symm.trans there'
    exact imports
  · intro imports
    exact ⟨index.toNat, mem_futureImports.2 ⟨line, there, imports⟩, Int.toNat_of_nonneg nonneg⟩

/-- The first line of a statement is in front of the support code. -/
def Program.Hoists (program : Program) (statement : LogicalStatement) : Prop :=
  ⟨statement.opening, some statement.first⟩ ∈ program.future

theorem hoists_iff {program : Program}
    (future : program.future = (futureImports (splitLines source)).map
      (fun index => ⟨(splitLines source).getD index [], some (index : Int)⟩)) (nonneg : 0 ≤ statement.first)
    (there : (splitLines source)[statement.first.toNat]? = some statement.opening) :
    program.Hoists statement ↔ isFutureImport statement.opening := by
  rw [Program.Hoists, future, List.mem_map]
  constructor
  · rintro ⟨index, mem, same⟩
    obtain ⟨line, there', imports⟩ := mem_futureImports.1 mem
    rw [GeneratedLine.mk.injEq, List.getD_eq_getElem?_getD, there'] at same
    obtain ⟨rfl, -⟩ := same
    exact imports
  · intro imports
    refine ⟨statement.first.toNat, mem_futureImports.2 ⟨_, there, imports⟩, ?_⟩
    rw [List.getD_eq_getElem?_getD, there, Int.toNat_of_nonneg nonneg]
    rfl

/-- Which lines are in front of the support code, and that a hoisted statement is not in the body, as long as those that
are hoisted up to it are on one line. -/
theorem future_imports_hoisted {source : Text} {indent : IndentConfig} {callLimit : Int} {program : Program}
    (done : instrument source indent callLimit = .ok program) :
    (∀ line ∈ program.future, ∃ index : Nat, line.origin = some (index : Int) ∧
      (splitLines source)[index]? = some line.text ∧ ImportsFuture line.text) ∧
    ∀ statement ∈ logicalStatements (splitLines source),
      (program.Hoists statement ↔ ImportsFuture statement.code ∧ findChar? statement.opening '(' = none) ∧
      (program.Hoists statement →
        (∀ other ∈ logicalStatements (splitLines source), other.first ≤ statement.first → program.Hoists other →
          other.last = other.first) →
        ∀ line ∈ program.body, line.origin ≠ some statement.first) := by
  obtain ⟨pieces, pass, whole, future, body⟩ := instrument_ok done
  have located (statement : LogicalStatement) (mem : statement ∈ logicalStatements (splitLines source)) :
      0 ≤ statement.first ∧ (splitLines source)[statement.first.toNat]? = some statement.opening ∧
        (ImportsFuture statement.code ↔ ImportsFuture statement.opening) := by
    obtain ⟨nonneg, line, rest, there, visible, same⟩ := of_mem_statementsFrom (linesFrom_start _) mem
    have oneLine := newline_not_mem_splitLines (List.mem_of_getElem? there.getElem?)
    rw [← same, opening_assemble, first_assemble]
    exact ⟨nonneg, there.getElem?, importsFuture_code _ rest oneLine⟩
  have hoists (statement : LogicalStatement) (mem : statement ∈ logicalStatements (splitLines source)) :
      program.Hoists statement ↔ isFutureImport statement.opening = true :=
    hoists_iff future (located statement mem).1 (located statement mem).2.1
  have hoisted (statement : LogicalStatement) (mem : statement ∈ logicalStatements (splitLines source)) :
      (Script.ofSource source indent callLimit).hoisted.contains statement.first = true ↔ program.Hoists statement :=
    (contains_hoisted_iff (located statement mem).1 (located statement mem).2.1).trans (hoists statement mem).symm
  refine ⟨?_, fun statement mem => ⟨?_, fun isHoisted single line among => ?_⟩⟩
  · intro line mem
    rw [future] at mem
    obtain ⟨index, known, rfl⟩ := List.mem_map.1 mem
    obtain ⟨text, there, imports⟩ := mem_futureImports.1 known
    refine ⟨index, rfl, ?_⟩
    rw [List.getD_eq_getElem?_getD, there]
    exact ⟨rfl, (isFutureImport_iff.1 imports).1⟩
  · rw [hoists statement mem, isFutureImport_iff, (located statement mem).2.2]
  · have waits : Waits (.ofSource source indent callLimit) statement 0 (splitLines source) :=
      ⟨(hoisted statement mem).2 isHoisted, linesFrom_start _,
        fun other among order isHoisted => single other among order ((hoisted other among).1 isHoisted), mem⟩
    have unreported := (range_ok whole).unreported (Script.flush_ofSource source indent callLimit) waits (by simp [Reported])
    rw [reported_iff_renderPieces] at unreported
    intro same
    exact unreported ⟨line, body ▸ among, same⟩

def importSource : Text :=
  "a\nfrom __future__ import b; c\nd".toList

def importStatement : LogicalStatement :=
  ⟨1, 1, [], "from __future__ import b; c".toList, .closed, .closed⟩

theorem future_imports_hoisted_sample :
    ∃ program, instrument importSource .standard 100 = .ok program ∧ program.Hoists importStatement ∧
      ∀ line ∈ program.body, line.origin ≠ some 1 := by
  have runs : (instrument importSource .standard 100).isOk = true := by decide +kernel
  obtain ⟨program, done⟩ := exists_ok runs
  have mem : importStatement ∈ logicalStatements (splitLines importSource) := by decide +kernel
  have single : ∀ other ∈ logicalStatements (splitLines importSource), other.last = other.first := by decide +kernel
  have code : importStatement.code = "from __future__ import".toList ++ " b; c".toList := by decide +kernel
  have front : FutureFront "from __future__ import".toList :=
    @FutureFront.intro " ".toList " ".toList (by decide) (by decide) (by decide) (by decide)
  have imports : ImportsFuture importStatement.code := ⟨_, _, front, code, by rintro c ⟨⟩; decide⟩
  obtain ⟨known, kept⟩ := (future_imports_hoisted done).2 importStatement mem
  have isHoisted := known.2 ⟨imports, by decide +kernel⟩
  exact ⟨program, done, isHoisted, kept isHoisted fun other among _ _ => single other among⟩

/-- An import with its names in parentheses stays in the body. -/
theorem import_in_parentheses :
    ((instrument "from __future__ import (a)".toList .standard 100).toOption.map Program.future = some []) ∧
      (logicalStatements (splitLines "from __future__ import (a)".toList)).map LogicalStatement.code =
        ["from __future__ import (a)".toList] ∧
      ImportsFuture "from __future__ import (a)".toList := by
  have front : FutureFront "from __future__ import".toList :=
    @FutureFront.intro " ".toList " ".toList (by decide) (by decide) (by decide) (by decide)
  exact ⟨by decide +kernel, by decide +kernel, _, " (a)".toList, front, by decide, by rintro c ⟨⟩; decide⟩

end Instrument

end LineProbe
