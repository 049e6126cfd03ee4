import LineProbe.Proofs.Hushed
import LineProbe.Proofs.Occurrences
import LineProbe.Proofs.Splitting

/-!
# Labels

The numbers that a pass draws label call sites and names.
-/

namespace LineProbe

open Text

inductive Label where
  | site (number : Nat)
  | name (temp : Temp)
deriving DecidableEq, Repr

def guardOpening (number : Nat) : Text :=
  "_clem_guard(\"" ++ Probe.siteName number ++ "\""

def shadowOpening (number : Nat) : Text :=
  "def " ++ Temp.name ⟨.mocked, number⟩

def Label.opens : Label → Text → Bool
  | .site number, text => startsWith text (guardOpening number)
  | .name ⟨.mocked, number⟩, text =>
    startsWith text (shadowOpening number) && !wordCharAt text (shadowOpening number).length
  | .name ⟨kind, number⟩, text => startsWith text (Temp.name ⟨kind, number⟩ ++ " = ")

def introductions (number : Nat) (text : Text) : Nat :=
  hits (Label.site number).opens text + hits (Label.name ⟨.augmented, number⟩).opens text +
    hits (Label.name ⟨.returned, number⟩).opens text + hits (Label.name ⟨.iterated, number⟩).opens text +
    hits (Label.name ⟨.mocked, number⟩).opens text

/-! ## Characters -/

def TempKind.stem : TempKind → Text
  | .augmented => "_clem_aug_".toList
  | .returned => "_clem_ret_".toList
  | .iterated => "_clem_iter_".toList
  | .mocked => "_clem_mock_".toList

theorem Temp.name_eq (temp : Temp) : temp.name = temp.kind.stem ++ ofNat temp.number := by
  obtain ⟨kind, number⟩ := temp
  cases kind <;> rfl

theorem not_mem_ofNat (other : c.isDigit = false) (n : Nat) : c ∉ ofNat n :=
  fun mem => absurd (isDigit_of_mem_ofNat mem) (by simp [other])

theorem not_mem_ofInt (other : c.isDigit = false) (sign : c ≠ '-') (n : Int) : c ∉ ofInt n := by
  cases n with
  | ofNat n => exact not_mem_ofNat other n
  | negSucc n => simp [ofInt, sign, not_mem_ofNat other]

theorem not_mem_tempName {temp : Temp} (other : c.isDigit = false) (absent : c ∉ temp.kind.stem) : c ∉ temp.name := by
  rw [Temp.name_eq, List.mem_append, not_or]
  exact ⟨absent, not_mem_ofNat other _⟩

theorem guardOpening_eq (number : Nat) : guardOpening number = "_clem_guard(\"s".toList ++ (ofNat number ++ ['"']) :=
  rfl

theorem shadowOpening_eq (number : Nat) : shadowOpening number = "def _clem_mock_".toList ++ ofNat number :=
  rfl

theorem not_mem_guardOpening (other : c.isDigit = false) (absent : c ∉ "_clem_guard(\"s".toList) (number : Nat) :
    c ∉ guardOpening number := by
  have quote : c ≠ '"' := by
    rintro rfl
    exact absent (by decide)
  rw [guardOpening_eq, List.mem_append, List.mem_append, List.mem_singleton, not_or, not_or]
  exact ⟨absent, not_mem_ofNat other number, quote⟩

theorem not_mem_shadowOpening (other : c.isDigit = false) (absent : c ∉ "def _clem_mock_".toList) (number : Nat) :
    c ∉ shadowOpening number := by
  rw [shadowOpening_eq, List.mem_append, not_or]
  exact ⟨absent, not_mem_ofNat other number⟩

/-! ## Texts that introduce nothing -/

def Bindless (text : Text) : Prop :=
  ∀ temp, hits (Label.name temp).opens text = 0

def Stemless (text : Text) : Prop :=
  ∀ kind : TempKind, occurrences kind.stem text = 0

def clemRoot : Text := "_clem_".toList

def Unmarked (text : Text) : Prop :=
  occurrences clemRoot text = 0

theorem hits_shadow_le (number : Nat) (text : Text) :
    hits (Label.name ⟨.mocked, number⟩).opens text ≤ occurrences (shadowOpening number) text :=
  hits_mono (fun _ opens => (Bool.and_eq_true_iff.1 opens).1) text

theorem bindless_of (unassigned : ∀ temp : Temp, occurrences (temp.name ++ " = ".toList) text = 0)
    (undefined : ∀ number, occurrences (shadowOpening number) text = 0) : Bindless text := by
  rintro ⟨kind, number⟩
  cases kind with
  | mocked => exact Nat.le_zero.1 ((hits_shadow_le number text).trans (Nat.le_of_eq (undefined number)))
  | augmented => exact unassigned ⟨.augmented, number⟩
  | returned => exact unassigned ⟨.returned, number⟩
  | iterated => exact unassigned ⟨.iterated, number⟩

theorem Stemless.unassigned (h : Stemless text) (temp : Temp) : occurrences (temp.name ++ " = ".toList) text = 0 := by
  rw [Temp.name_eq, List.append_assoc]
  exact Nat.le_zero.1 ((occurrences_le_root (List.prefix_append _ _) text).trans (Nat.le_of_eq (h temp.kind)))

theorem undefined_of_stem (h : occurrences TempKind.mocked.stem text = 0) (shadow : Nat) :
    occurrences (shadowOpening shadow) text = 0 := by
  have named : occurrences (Temp.name ⟨.mocked, shadow⟩) text ≤ 0 := by
    rw [Temp.name_eq]
    exact (occurrences_le_root (List.prefix_append _ _) text).trans (Nat.le_of_eq h)
  exact Nat.le_zero.1 ((occurrences_le_tail (starts_tempName _).ne_nil _ text).trans named)

theorem Stemless.bindless (h : Stemless text) : Bindless text :=
  bindless_of h.unassigned (undefined_of_stem (h .mocked))

theorem introductions_eq (number : Nat) (text : Text) : introductions number text =
    occurrences (guardOpening number) text + occurrences (Temp.name ⟨.augmented, number⟩ ++ " = ".toList) text +
      occurrences (Temp.name ⟨.returned, number⟩ ++ " = ".toList) text +
      occurrences (Temp.name ⟨.iterated, number⟩ ++ " = ".toList) text +
      hits (Label.name ⟨.mocked, number⟩).opens text :=
  rfl

theorem Bindless.introductions_eq (h : Bindless text) :
    introductions number text = occurrences (guardOpening number) text := by
  simp only [introductions, h _, Nat.add_zero]
  rfl

theorem introductions_blanks (blank : ∀ c ∈ blanks, isBlankChar c) (number : Nat) (text : Text) :
    introductions number (blanks ++ text) = introductions number text := by
  have skip (label : Label) : hits label.opens (blanks ++ text) = hits label.opens text := by
    refine hits_append_of_fail (fun c mem rest => ?_) text
    have underscore : c ≠ '_' := by
      rintro rfl
      exact absurd (blank _ mem) (by decide)
    have letter : c ≠ 'd' := by
      rintro rfl
      exact absurd (blank _ mem) (by decide)
    match label with
    | .site number => exact startsWith_cons_of_ne rfl underscore rest
    | .name ⟨.mocked, number⟩ =>
      rw [Label.opens, startsWith_cons_of_ne rfl letter rest, Bool.false_and]
    | .name ⟨.augmented, number⟩ | .name ⟨.returned, number⟩ | .name ⟨.iterated, number⟩ =>
      exact startsWith_cons_of_ne rfl underscore rest
  simp only [introductions, skip]

theorem Label.opens_newline (label : Label) (text last : Text) : label.opens (text ++ '\n' :: last) = label.opens text := by
  have starts {part : Text} (foreign : '\n' ∉ part) : startsWith (text ++ '\n' :: last) part = startsWith text part :=
    Bool.eq_iff_iff.2 (by rw [startsWith_iff, startsWith_iff, (severs_cons foreign last).prefix_append_iff])
  have assigned (temp : Temp) : '\n' ∉ temp.name ++ " = ".toList :=
    (plain_append.2 ⟨plain_tempName temp, by decide⟩ : Plain _).newline_not_mem
  match label with
  | .site number => exact starts (not_mem_guardOpening (by decide) (by decide) number)
  | .name ⟨.augmented, number⟩ | .name ⟨.returned, number⟩ | .name ⟨.iterated, number⟩ => exact starts (assigned _)
  | .name ⟨.mocked, number⟩ =>
    rw [Label.opens, Label.opens, starts (not_mem_shadowOpening (by decide) (by decide) number)]
    cases begins : startsWith text (shadowOpening number) with
    | false => rfl
    | true =>
      have inside := (startsWith_iff.1 begins).length_le
      rcases Nat.lt_or_eq_of_le inside with before | last_
      · rw [wordCharAt, wordCharAt, List.getElem?_append_left before]
      · rw [wordCharAt, wordCharAt, last_, List.getElem?_append_right (Nat.le_refl _), Nat.sub_self]
        simp
        decide

theorem introductions_newline (number : Nat) (first last : Text) :
    introductions number (first ++ '\n' :: last) = introductions number first + introductions number last := by
  have cut (label : Label) : hits label.opens (first ++ '\n' :: last) = hits label.opens first + hits label.opens last := by
    have none : label.opens ('\n' :: last) = false := (label.opens_newline [] last).trans (by
      match label with
      | .site _ | .name ⟨.mocked, _⟩ | .name ⟨.augmented, _⟩ | .name ⟨.returned, _⟩ | .name ⟨.iterated, _⟩ => rfl)
    rw [hits_append (label.opens_newline · last), hits, none, if_neg Bool.false_ne_true, Nat.zero_add]
  simp only [introductions, cut]
  omega

/-! ## Guards -/

structure Marker (part : Text) : Prop where
  root : clemRoot <+: part
  foreign : ∀ c ∈ " ),\n".toList, c ∉ part

theorem marker_guardOpening (number : Nat) : Marker (guardOpening number) where
  root := ⟨"guard(\"s".toList ++ (ofNat number ++ ['"']), rfl⟩
  foreign := by
    have absent : ∀ c ∈ " ),\n".toList, c.isDigit = false ∧ c ∉ "_clem_guard(\"s".toList := by decide
    exact fun c mem => not_mem_guardOpening (absent c mem).1 (absent c mem).2 number

theorem marker_stem (kind : TempKind) : Marker kind.stem := by
  cases kind <;> exact ⟨by decide, by decide⟩

def guardRest (line limit : Int) : Text :=
  ", ".toList ++ ofInt line ++ ", ".toList ++ ofInt limit ++ ")".toList

theorem guardCall_eq (site : Nat) (line limit : Int) : Probe.guardCall (Probe.siteName site) line limit =
    "_clem_guard(\"s".toList ++ (ofNat site ++ '"' :: guardRest line limit) := by
  have whole : Probe.guardCall (Probe.siteName site) line limit = "_clem_guard(\"".toList ++ ('s' :: ofNat site) ++
      "\", ".toList ++ ofInt line ++ ", ".toList ++ ofInt limit ++ ")".toList := rfl
  have first : "_clem_guard(\"s".toList = "_clem_guard(\"".toList ++ ['s'] := by decide
  have quote : "\", ".toList = '"' :: ", ".toList := by decide
  rw [whole, first, quote, guardRest]
  simp only [List.append_assoc, List.cons_append, List.nil_append]

namespace Marker

theorem head? (marker : Marker part) : part.head? = some '_' := by
  obtain ⟨rest, rfl⟩ := marker.root
  rfl

theorem ne_nil (marker : Marker part) : part ≠ [] := by
  rintro rfl
  cases marker.head?

theorem skip (marker : Marker part) (absent : '_' ∉ first) (last : Text) :
    occurrences part (first ++ last) = occurrences part last :=
  occurrences_append_of_not_mem marker.head? absent last

theorem cut (marker : Marker part) (cuts : c ∈ " ),\n".toList) (first last : Text) :
    occurrences part (first ++ c :: last) = occurrences part first + occurrences part last :=
  occurrences_cut marker.ne_nil (marker.foreign c cuts) first last

theorem unmarked (marker : Marker part) (free : Unmarked text) : occurrences part text = 0 :=
  Nat.le_zero.1 ((occurrences_le_root marker.root text).trans (Nat.le_of_eq free))

theorem opened (marker : Marker part) (text : Text) : occurrences part ('(' :: text) = occurrences part text :=
  marker.skip (show '_' ∉ ['('] by decide) text

theorem closed (marker : Marker part) (text : Text) : occurrences part (text ++ [')']) = occurrences part text :=
  (marker.cut (by decide) text []).trans (Nat.add_zero _)

theorem single (marker : Marker part) (absent : '_' ∉ rest) (other : rest.head? ≠ some 'c') :
    occurrences part (clemRoot ++ rest) = if startsWith (clemRoot ++ rest) part then 1 else 0 := by
  have whole : clemRoot ++ rest = '_' :: ("clem".toList ++ '_' :: rest) := rfl
  have alone : occurrences part ("clem".toList ++ '_' :: rest) = 0 := by
    obtain ⟨tail, same⟩ := marker.root
    rw [marker.skip (by decide), occurrences_cons_of_not, occurrences_eq_zero (List.mem_of_mem_head? marker.head?) absent]
    rw [← same]
    rintro ⟨more, starts⟩
    exact other (by rw [← (List.cons.inj starts).2]; rfl)
  rw [whole, occurrences_cons, alone, Nat.add_zero]

theorem guardCall (marker : Marker part) (site : Nat) (line limit : Int) :
    occurrences part (Probe.guardCall (Probe.siteName site) line limit) =
      if startsWith (Probe.guardCall (Probe.siteName site) line limit) part then 1 else 0 := by
  have first : "_clem_guard(\"s".toList = clemRoot ++ "guard(\"s".toList := by decide
  rw [guardCall_eq, first, List.append_assoc]
  refine marker.single ?_ (by rintro ⟨⟩)
  simp only [guardRest, List.mem_append, List.mem_cons, not_or]
  exact ⟨by decide, not_mem_ofNat rfl site, by decide, ⟨⟨⟨by decide, not_mem_ofInt rfl (by decide) line⟩, by decide⟩,
    not_mem_ofInt rfl (by decide) limit⟩, by decide⟩

theorem guardedValue (marker : Marker part) (free : Unmarked value) (site : Nat) (line limit : Int) :
    occurrences part (Probe.guardedValue (Probe.siteName site) line limit value) =
      occurrences part (Probe.guardCall (Probe.siteName site) line limit) := by
  have between : " or ".toList = ' ' :: "or ".toList := by decide
  rw [guardedValue_eq, between]
  generalize Probe.guardCall (Probe.siteName site) line limit = call
  rw [marker.opened, marker.closed, List.cons_append, marker.cut (by decide), marker.skip (by decide), marker.opened,
    marker.closed, marker.unmarked free, Nat.add_zero]

end Marker

theorem ofNat_append_inj (same : ofNat m ++ first = ofNat n ++ last) (ends : ∀ c ∈ first.head?, c.isDigit = false)
    (ends' : ∀ c ∈ last.head?, c.isDigit = false) : m = n := by
  have digits (n : Nat) {rest : Text} (ends : ∀ c ∈ rest.head?, c.isDigit = false) :
      (ofNat n ++ rest).takeWhile Char.isDigit = ofNat n := by
    rw [List.takeWhile_append_of_pos fun c => isDigit_of_mem_ofNat]
    cases rest with
    | nil => simp
    | cons c rest => rw [List.takeWhile_cons_of_neg (by simp [ends c rfl]), List.append_nil]
  rw [← digitsValue_ofNat m, ← digits m ends, same, digits n ends', digitsValue_ofNat]

theorem occurrences_guardCall (number site : Nat) (line limit : Int) :
    occurrences (guardOpening number) (Probe.guardCall (Probe.siteName site) line limit) ≤
      if site = number then 1 else 0 := by
  rw [(marker_guardOpening number).guardCall]
  split
  · next starts =>
    rw [startsWith_iff, guardCall_eq, guardOpening_eq, List.prefix_append_right_inj] at starts
    obtain ⟨rest, same⟩ := starts
    rw [List.append_assoc, List.singleton_append] at same
    rw [if_pos (ofNat_append_inj same.symm (by rintro c ⟨⟩; rfl) (by rintro c ⟨⟩; rfl))]
  · exact Nat.zero_le _

theorem stemless_guardCall (site : Nat) (line limit : Int) :
    Stemless (Probe.guardCall (Probe.siteName site) line limit) := by
  intro kind
  rw [(marker_stem kind).guardCall, guardCall_eq]
  cases kind <;> rfl

/-! ## Lines that are put in -/

def signs : List Text :=
  ["d(".toList, "f _".toList, " = ".toList]

def Signless (text : Text) : Prop :=
  ∀ sign ∈ signs, occurrences sign text = 0

theorem Signless.introductions_eq (h : Signless text) : introductions number text = 0 := by
  have absent {part sign : Text} (mem : sign ∈ signs) (holds : sign <:+: part) : occurrences part text = 0 := by
    have filled : ∀ sign ∈ signs, sign ≠ [] := by decide
    exact Nat.le_zero.1 (h sign mem ▸ occurrences_le_of_holds (filled sign mem) holds text)
  have guard : "d(".toList <:+: guardOpening number := ⟨"_clem_guar".toList, "\"s".toList ++ (ofNat number ++ ['"']), rfl⟩
  have define (number : Nat) : "f _".toList <:+: shadowOpening number := ⟨"de".toList, "clem_mock_".toList ++ ofNat number, rfl⟩
  have assign (temp : Temp) : " = ".toList <:+: temp.name ++ " = ".toList := (List.suffix_append _ _).isInfix
  rw [(bindless_of (fun temp => absent (by decide) (assign temp)) fun number => absent (by decide) (define number)).introductions_eq,
    absent (by decide) guard]

theorem signless_cut (foreign : ∀ sign ∈ signs, c ∉ sign) :
    Signless (first ++ c :: last) ↔ Signless first ∧ Signless last := by
  have filled : ∀ sign ∈ signs, sign ≠ [] := by decide
  rw [Signless, Signless, Signless, ← forall₂_and]
  refine forall₂_congr fun sign mem => ?_
  rw [occurrences_cut (filled sign mem) (foreign sign mem), Nat.add_eq_zero_iff]

theorem signless_open : Signless ('(' :: text) ↔ Signless text := by
  have other : ∀ sign ∈ signs, sign.head?.any (· ∉ ['(']) := by decide
  refine forall₂_congr fun sign mem => ?_
  obtain ⟨c, first, apart⟩ := (Option.any_eq_true _ _).1 (other sign mem)
  rw [← List.singleton_append, occurrences_append_of_not_mem first (of_decide_eq_true apart)]

def Neutral (text : Text) : Prop :=
  ∀ c ∈ "df=".toList, c ∉ text

instance (text : Text) : Decidable (Neutral text) :=
  inferInstanceAs (Decidable (∀ c ∈ "df=".toList, c ∉ text))

theorem neutral_append : Neutral (first ++ last) ↔ Neutral first ∧ Neutral last := by
  simp only [Neutral, List.mem_append, not_or, ← forall_and]

theorem neutral_ofInt (n : Int) : Neutral (ofInt n) := by
  have other : ∀ c ∈ "df=".toList, c.isDigit = false ∧ c ≠ '-' := by decide
  exact fun c mem => not_mem_ofInt (other c mem).1 (other c mem).2 n

theorem Neutral.signless (h : Neutral text) : Signless text := by
  have letter : ∀ sign ∈ signs, "df=".toList.any (· ∈ sign) := by decide
  intro sign mem
  obtain ⟨c, known, inside⟩ := List.any_eq_true.1 (letter sign mem)
  exact occurrences_eq_zero (of_decide_eq_true inside) (h c known)

theorem Wordy.not_mem (h : Wordy text) (other : isNamePart c = false) (dot : c ≠ '.') : c ∉ text :=
  fun mem => (h c mem).elim (by simp [other]) dot

theorem Wordy.signless (h : Wordy text) : Signless text := by
  have other : ∀ sign ∈ signs, sign.any fun c => isNamePart c = false ∧ c ≠ '.' := by decide
  intro sign mem
  obtain ⟨c, inside, apart⟩ := List.any_eq_true.1 (other sign mem)
  obtain ⟨part, dot⟩ := of_decide_eq_true apart
  exact occurrences_eq_zero inside (h.not_mem part dot)

theorem Temp.not_mem_name (mem : c ∈ "(=df ".toList) (temp : Temp) : c ∉ temp.name := by
  have all : ∀ c ∈ "(=df ".toList, c.isDigit = false ∧ ∀ kind ∈ [TempKind.augmented, .returned, .iterated, .mocked],
      c ∉ kind.stem := by decide
  exact not_mem_tempName (all c mem).1 ((all c mem).2 _ (by cases temp.kind <;> decide))

theorem Temp.neutral (temp : Temp) : Neutral temp.name := by
  have named : ∀ c ∈ "df=".toList, c ∈ "(=df ".toList := by decide
  exact fun c mem => temp.not_mem_name (named c mem)

theorem neutral_tag (line : Int) : Neutral (Probe.tag line) := by
  rw [show Probe.tag line = "\"".toList ++ ofInt line ++ ":\"".toList from rfl, neutral_append, neutral_append]
  exact ⟨⟨by decide, neutral_ofInt line⟩, by decide⟩

theorem neutral_bare (line : Int) : Neutral (Probe.bare line) := by
  rw [show Probe.bare line = "print(".toList ++ Probe.tag line ++ ")".toList from rfl, neutral_append, neutral_append]
  exact ⟨⟨by decide, neutral_tag line⟩, by decide⟩

theorem neutral_mark (line : Int) : Neutral (Probe.mark line) := by
  rw [show Probe.mark line = "_clem_mark(\"".toList ++ ofInt line ++ "\")".toList from rfl, neutral_append, neutral_append]
  exact ⟨⟨by decide, neutral_ofInt line⟩, by decide⟩

theorem neutral_enter (line : Int) : Neutral (Probe.enter line) := by
  rw [show Probe.enter line = "_clem_enter(\"".toList ++ ofInt line ++ "\")".toList from rfl, neutral_append, neutral_append]
  exact ⟨⟨by decide, neutral_ofInt line⟩, by decide⟩

theorem signless_showing (h : Signless payload) (line : Int) : Signless (Probe.showing line payload) := by
  have whole : Probe.showing line payload =
      ("print(".toList ++ (Probe.tag line ++ " + st".toList)) ++ 'r' :: '(' :: (payload ++ ')' :: [')']) := by
    rw [Reader.showing_eq]
    simp
  have front : Neutral ("print(".toList ++ (Probe.tag line ++ " + st".toList)) :=
    neutral_append.2 ⟨by decide, neutral_append.2 ⟨neutral_tag line, by decide⟩⟩
  rw [whole, signless_cut (by decide), signless_open, signless_cut (by decide)]
  exact ⟨front.signless, h, Neutral.signless (by decide)⟩

theorem signless_parameter (wordy : Wordy name) (line : Int) : Signless (Probe.parameter line name) := by
  have whole : Probe.parameter line name = ("print(\"".toList ++ ofInt line) ++
      ':' :: (name ++ ':' :: (" \" + st".toList ++ 'r' :: '(' :: (name ++ ')' :: [')']))) := by
    rw [Reader.parameter_eq]
    simp
  have front : Neutral ("print(\"".toList ++ ofInt line) := neutral_append.2 ⟨by decide, neutral_ofInt line⟩
  rw [whole, signless_cut (by decide), signless_cut (by decide), signless_cut (by decide), signless_open,
    signless_cut (by decide)]
  exact ⟨front.signless, wordy.signless, Neutral.signless (by decide), wordy.signless, Neutral.signless (by decide)⟩

theorem signless_iff : Signless text ↔ occurrences "d(".toList text = 0 ∧ occurrences "f _".toList text = 0 ∧
    occurrences " = ".toList text = 0 := by
  simp only [Signless, signs, List.forall_mem_cons, List.not_mem_nil, false_imp_iff, implies_true, and_true]

theorem Wordy.signless_blank (h : Wordy text) : Signless (text ++ [' ']) := by
  have absent {c : Char} (other : isNamePart c = false) (dot : c ≠ '.') (blank : c ∉ [' ']) : c ∉ text ++ [' '] :=
    List.not_mem_append (h.not_mem other dot) blank
  refine signless_iff.2 ⟨occurrences_eq_zero (c := '(') (by decide) (absent (by decide) (by decide) (by decide)), ?_,
    occurrences_eq_zero (c := '=') (by decide) (absent (by decide) (by decide) (by decide))⟩
  rw [occurrences_append_of_last (c := '_') (by decide) (by decide), h.signless _ (by decide)]

section

variable (symbols : Symbols operator) (wordy : Wordy target) (temp : Temp)

include symbols wordy

theorem Symbols.signless (later : ∀ more, (∀ c ∈ more, c ∈ "-+*/%@&|^<>".toList) → Signless (more ++ rest)) :
    Signless (target ++ " ".toList ++ operator ++ rest) := by
  obtain ⟨c, more, rfl⟩ := List.exists_cons_of_ne_nil symbols.filled
  have foreign : ∀ c ∈ "-+*/%@&|^<>".toList, ∀ sign ∈ signs, c ∉ sign := by decide
  rw [List.append_assoc, List.cons_append, signless_cut (foreign c (symbols.chars c List.mem_cons_self))]
  exact ⟨wordy.signless_blank, later more fun d mem => symbols.chars d (List.mem_cons_of_mem _ mem)⟩

theorem Symbols.signless_shown : Signless (target ++ " ".toList ++ operator ++ " ".toList ++ temp.name) := by
  rw [List.append_assoc _ " ".toList]
  refine symbols.signless wordy fun more known => Neutral.signless ?_
  have symbol : ∀ c ∈ "-+*/%@&|^<>".toList, c ∉ "df=".toList := by decide
  exact neutral_append.2 ⟨fun c letter mem => symbol c (known c mem) letter, neutral_append.2 ⟨by decide, temp.neutral⟩⟩

theorem Symbols.signless_update : Signless (target ++ " ".toList ++ operator ++ "= ".toList ++ temp.name) := by
  rw [List.append_assoc _ "= ".toList]
  refine symbols.signless wordy fun more known => ?_
  have absent {c : Char} (mem : c ∈ "(=df ".toList) (other : c ∉ "-+*/%@&|^<>".toList ∧ c ∉ "= ".toList) :
      c ∉ more ++ ("= ".toList ++ temp.name) :=
    List.not_mem_append (fun inside => other.1 (known c inside)) (List.not_mem_append other.2 (temp.not_mem_name mem))
  have blank : ' ' ∉ more ++ ['='] := List.not_mem_append (fun inside => absurd (known _ inside) (by decide)) (by decide)
  have split : more ++ ("= ".toList ++ temp.name) = (more ++ ['=']) ++ (' ' :: temp.name) := by simp
  refine signless_iff.2 ⟨occurrences_eq_zero (c := '(') (by decide) (absent (by decide) (by decide)),
    occurrences_eq_zero (c := 'f') (by decide) (absent (by decide) (by decide)), ?_⟩
  rw [split, occurrences_append_of_not_mem rfl blank, occurrences_eq_zero (c := '=') (by decide)]
  exact List.not_mem_cons_of_ne_of_not_mem (by decide) (temp.not_mem_name (by decide))

end

/-! ## Copies of functions -/

theorem unguarded_of (absent : '(' ∉ text) : occurrences (guardOpening number) text = 0 :=
  occurrences_eq_zero (by rw [guardOpening_eq]; exact List.mem_append_left _ (by decide)) absent

theorem Unmarked.stemless (free : Unmarked text) : Stemless text :=
  fun kind => (marker_stem kind).unmarked free

theorem Unmarked.introductions_eq (free : Unmarked text) : introductions number text = 0 := by
  rw [free.stemless.bindless.introductions_eq, (marker_guardOpening number).unmarked free]

theorem not_mem_shadow (other : c.isDigit = false) (absent : c ∉ TempKind.mocked.stem) (shadow : Nat) :
    c ∉ Temp.name ⟨.mocked, shadow⟩ :=
  not_mem_tempName other absent

theorem severs_of_stops (words : ∀ c ∈ part, isWordChar c) (stops : ∀ c ∈ rest.head?, isWordChar c = false) :
    Severs part rest := by
  cases rest with
  | nil => exact fun rest filled _ starts => filled (List.prefix_nil.1 starts)
  | cons c rest =>
    refine severs_cons (fun mem => ?_) rest
    have := words c mem
    simp [stops c rfl] at this

theorem occurrences_shadow_append (stops : ∀ c ∈ rest.head?, isWordChar c = false) (shadow : Nat) :
    occurrences (guardOpening number) (Temp.name ⟨.mocked, shadow⟩ ++ rest) = occurrences (guardOpening number) rest := by
  have begins : "_clem_g".toList <+: guardOpening number := ⟨"uard(\"s".toList ++ (ofNat number ++ ['"']), rfl⟩
  exact occurrences_append_of_root begins (severs_of_stops (by decide) stops)
    (occurrences_eq_zero (by decide) (not_mem_shadow (c := 'g') (by decide) (by decide) shadow))

theorem introductions_callMock (free : Unmarked arguments) (shadow : Nat) :
    introductions number (Temp.name ⟨.mocked, shadow⟩ ++ "(".toList ++ arguments ++ ")".toList) = 0 := by
  have whole : Temp.name ⟨.mocked, shadow⟩ ++ "(".toList ++ arguments ++ ")".toList =
      Temp.name ⟨.mocked, shadow⟩ ++ '(' :: (arguments ++ [')']) := by simp
  have inside : Unmarked (arguments ++ [')']) :=
    (occurrences_cut (by decide) (by decide) arguments []).trans (Nat.add_eq_zero_iff.2 ⟨free, rfl⟩)
  have bindless : Bindless (Temp.name ⟨.mocked, shadow⟩ ++ '(' :: (arguments ++ [')'])) := by
    refine bindless_of (fun temp => ?_) fun other => ?_
    · have equals : '=' ∈ temp.name ++ " = ".toList := List.mem_append_right _ (by decide)
      rw [occurrences_cut (List.ne_nil_of_mem equals) (List.not_mem_append (temp.not_mem_name (by decide)) (by decide)),
        occurrences_eq_zero equals (Temp.not_mem_name (by decide) _), inside.stemless.unassigned]
    · have first : (shadowOpening other).head? = some 'd' := rfl
      rw [occurrences_append_of_not_mem first (not_mem_shadow (by decide) (by decide) shadow),
        ← List.singleton_append, occurrences_append_of_not_mem first (by decide),
        undefined_of_stem (inside.stemless .mocked)]
  rw [whole, bindless.introductions_eq, occurrences_shadow_append (by rintro c ⟨⟩; decide) shadow,
    (marker_guardOpening number).opened, (marker_guardOpening number).unmarked inside]

section

theorem unassigned_shadow (free : Unmarked rest) (stops : ∀ c ∈ rest.head?, isWordChar c = false)
    (other : kind ≠ .mocked) (shadow number : Nat) :
    occurrences (Temp.name ⟨kind, number⟩ ++ " = ".toList) ("def ".toList ++ Temp.name ⟨.mocked, shadow⟩ ++ rest) = 0 := by
  have stem : occurrences kind.stem ("def ".toList ++ Temp.name ⟨.mocked, shadow⟩ ++ rest) = 0 := by
    have words : ∀ c ∈ kind.stem, isWordChar c := by cases kind <;> decide
    have letter : ∃ c ∈ kind.stem, c.isDigit = false ∧ c ∉ TempKind.mocked.stem := by
      cases kind with
      | augmented => exact ⟨'a', by decide⟩
      | returned => exact ⟨'r', by decide⟩
      | iterated => exact ⟨'i', by decide⟩
      | mocked => exact absurd rfl other
    obtain ⟨c, mem, digit, absent⟩ := letter
    rw [List.append_assoc, (marker_stem kind).skip (by decide), occurrences_append (severs_of_stops words stops),
      occurrences_eq_zero mem (not_mem_shadow digit absent shadow), free.stemless kind]
  rw [Temp.name_eq ⟨kind, number⟩, List.append_assoc kind.stem]
  exact Nat.le_zero.1 ((occurrences_le_root (List.prefix_append _ _) _).trans (Nat.le_of_eq stem))

theorem eq_of_opens_shadow (stops : ∀ c ∈ rest.head?, isWordChar c = false)
    (h : (Label.name ⟨.mocked, number⟩).opens ("def ".toList ++ Temp.name ⟨.mocked, shadow⟩ ++ rest)) :
    shadow = number := by
  have digits {text : Text} (stops : ∀ c ∈ text.head?, isWordChar c = false) : ∀ c ∈ text.head?, c.isDigit = false := by
    intro c mem
    by_contra digit
    have := isWordChar_of_isDigit (by simpa using digit)
    simp [stops c mem] at this
  have whole : "def ".toList ++ Temp.name ⟨.mocked, shadow⟩ ++ rest = "def _clem_mock_".toList ++ (ofNat shadow ++ rest) := by
    rw [← List.append_assoc]
    rfl
  rw [Label.opens, Bool.and_eq_true_iff, startsWith_iff, whole, shadowOpening_eq] at h
  obtain ⟨⟨more, same⟩, alone⟩ := h
  have behind : ∀ c ∈ more.head?, isWordChar c = false := by
    rw [← same, wordCharAt, List.getElem?_append_right (Nat.le_refl _), Nat.sub_self, ← List.head?_eq_getElem?] at alone
    intro c mem
    rw [Option.mem_def] at mem
    simpa [mem] using alone
  rw [List.append_assoc] at same
  exact (ofNat_append_inj (List.append_cancel_left same) (digits behind) (digits stops)).symm

theorem introductions_shadow (free : Unmarked rest) (stops : ∀ c ∈ rest.head?, isWordChar c = false) :
    introductions number ("def ".toList ++ Temp.name ⟨.mocked, shadow⟩ ++ rest) ≤ if shadow = number then 1 else 0 := by
  have site : occurrences (guardOpening number) ("def ".toList ++ Temp.name ⟨.mocked, shadow⟩ ++ rest) = 0 := by
    rw [List.append_assoc, (marker_guardOpening number).skip (by decide), occurrences_shadow_append stops,
      (marker_guardOpening number).unmarked free]
  have copy : hits (Label.name ⟨.mocked, number⟩).opens ("def ".toList ++ Temp.name ⟨.mocked, shadow⟩ ++ rest) ≤
      if shadow = number then 1 else 0 := by
    have split : "def ".toList ++ Temp.name ⟨.mocked, shadow⟩ ++ rest =
        'd' :: (("ef ".toList ++ Temp.name ⟨.mocked, shadow⟩) ++ rest) := rfl
    have tail : hits (Label.name ⟨.mocked, number⟩).opens (("ef ".toList ++ Temp.name ⟨.mocked, shadow⟩) ++ rest) = 0 := by
      refine Nat.le_zero.1 ((hits_shadow_le number _).trans (Nat.le_of_eq ?_))
      have absent : 'd' ∉ "ef ".toList ++ Temp.name ⟨.mocked, shadow⟩ :=
        List.not_mem_append (by decide) (not_mem_shadow (by decide) (by decide) shadow)
      rw [occurrences_append_of_not_mem rfl absent, undefined_of_stem (free.stemless .mocked)]
    cases opens : (Label.name ⟨.mocked, number⟩).opens ("def ".toList ++ Temp.name ⟨.mocked, shadow⟩ ++ rest) with
    | false =>
      rw [split, hits, ← split, opens, tail]
      exact Nat.zero_le _
    | true =>
      rw [if_pos (eq_of_opens_shadow stops opens), split, hits, ← split, opens, tail]
      exact Nat.le_refl _
  have assigned {kind : TempKind} (other : kind ≠ .mocked) := unassigned_shadow free stops other shadow number
  rw [introductions_eq, site, assigned (by decide), assigned (by decide), assigned (by decide)]
  simpa using copy

end

/-! ## Assignments -/

theorem occurrences_stem (kind : TempKind) (temp : Temp) :
    occurrences kind.stem temp.name = if kind = temp.kind then 1 else 0 := by
  have last : kind.stem.getLast? = some '_' := by cases kind <;> rfl
  rw [temp.name_eq, occurrences_append_of_last last (not_mem_ofNat rfl _)]
  cases kind <;> cases temp.kind <;> decide

theorem occurrences_le_of_once (filled : root ≠ []) (begins : root <+: part) (starts : root <+: text)
    (once : occurrences root text ≤ 1) : occurrences part text ≤ if startsWith text part then 1 else 0 := by
  obtain ⟨c, rest, rfl⟩ := List.exists_cons_of_ne_nil (mt (fun empty => List.prefix_nil.1 (empty ▸ starts)) filled)
  have alone : occurrences root rest = 0 := by
    rw [occurrences_cons, if_pos (startsWith_iff.2 starts)] at once
    omega
  have tail : occurrences part rest = 0 := Nat.le_zero.1 ((occurrences_le_root begins rest).trans (Nat.le_of_eq alone))
  rw [occurrences_cons, tail]
  exact Nat.le_refl _

section

variable {temp : Temp}

theorem occurrences_binding (temp : Temp) (free : Stemless value) (kind : TempKind) (number : Nat) :
    occurrences (Temp.name ⟨kind, number⟩ ++ " = ".toList) (temp.name ++ ' ' :: ("= ".toList ++ value)) ≤
      if kind = temp.kind ∧ temp.number = number then 1 else 0 := by
  have named : occurrences kind.stem (temp.name ++ ' ' :: ("= ".toList ++ value)) = if kind = temp.kind then 1 else 0 := by
    rw [(marker_stem kind).cut (by decide), (marker_stem kind).skip (by decide), free kind, occurrences_stem, Nat.add_zero]
  have begins : kind.stem <+: Temp.name ⟨kind, number⟩ ++ " = ".toList := by
    rw [Temp.name_eq, List.append_assoc]
    exact List.prefix_append _ _
  by_cases same : kind = temp.kind
  · have starts : kind.stem <+: temp.name ++ ' ' :: ("= ".toList ++ value) := by
      rw [same, temp.name_eq, List.append_assoc]
      exact List.prefix_append _ _
    refine (occurrences_le_of_once (marker_stem kind).ne_nil begins starts (by rw [named, if_pos same])).trans ?_
    split
    · next opens =>
      rw [startsWith_iff, temp.name_eq, Temp.name_eq ⟨kind, number⟩, ← same, List.append_assoc, List.append_assoc,
        List.prefix_append_right_inj] at opens
      obtain ⟨rest, digits⟩ := opens
      rw [List.append_assoc] at digits
      have numbers := ofNat_append_inj digits (by rintro c ⟨⟩; rfl) (by rintro c ⟨⟩; rfl)
      rw [if_pos ⟨same, numbers.symm⟩]
    · exact Nat.zero_le _
  · rw [if_neg (fun both => same both.1)]
    refine (occurrences_le_root begins _).trans ?_
    rw [named, if_neg same]

theorem introductions_binding (kept : temp.kind ≠ .mocked) (free : Stemless value) :
    introductions number (temp.name ++ " = ".toList ++ value) ≤
      (if temp.number = number then 1 else 0) + occurrences (guardOpening number) value := by
  have whole : temp.name ++ " = ".toList ++ value = temp.name ++ ' ' :: ("= ".toList ++ value) := by simp
  have site : occurrences (guardOpening number) (temp.name ++ ' ' :: ("= ".toList ++ value)) =
      occurrences (guardOpening number) value := by
    rw [(marker_guardOpening number).cut (by decide), (marker_guardOpening number).skip (by decide),
      unguarded_of (temp.not_mem_name (by decide)), Nat.zero_add]
  have undefined : hits (Label.name ⟨.mocked, number⟩).opens (temp.name ++ ' ' :: ("= ".toList ++ value)) = 0 := by
    refine Nat.le_zero.1 ((hits_shadow_le number _).trans (Nat.le_of_eq (undefined_of_stem ?_ number)))
    rw [(marker_stem .mocked).cut (by decide), (marker_stem .mocked).skip (by decide), free .mocked, occurrences_stem,
      if_neg kept.symm]
  have aug := occurrences_binding temp free .augmented number
  have ret := occurrences_binding temp free .returned number
  have iter := occurrences_binding temp free .iterated number
  have share : (if TempKind.augmented = temp.kind ∧ temp.number = number then 1 else 0) +
      (if TempKind.returned = temp.kind ∧ temp.number = number then 1 else 0) +
      (if TempKind.iterated = temp.kind ∧ temp.number = number then 1 else 0) ≤ if temp.number = number then 1 else 0 := by
    by_cases same : temp.number = number
    · simp only [same, and_true, if_true]
      cases temp.kind <;> decide
    · simp only [same, and_false, if_false, Nat.le_refl]
  rw [whole, introductions_eq, site, undefined]
  omega

end

theorem introductions_loopHead (free : Stemless front) {temp : Temp} (kept : temp.kind ≠ .mocked) :
    introductions number (front ++ ' ' :: (temp.name ++ [':'])) = occurrences (guardOpening number) front := by
  have bindless : Bindless (front ++ ' ' :: (temp.name ++ [':'])) := by
    refine bindless_of (fun other => ?_) (undefined_of_stem ?_)
    · have last : (other.name ++ " = ".toList).getLast? = some ' ' := by
        rw [List.getLast?_append]
        rfl
      have apart : ' ' ∉ temp.name ++ [':'] := List.not_mem_append (temp.not_mem_name (by decide)) (by decide)
      have stemless : Stemless (front ++ [' ']) := fun kind => by
        rw [(marker_stem kind).cut (by decide), free kind]
        rfl
      rw [← List.singleton_append, ← List.append_assoc, occurrences_append_of_last last apart, stemless.unassigned]
    · have last : TempKind.mocked.stem.getLast? = some '_' := rfl
      rw [(marker_stem .mocked).cut (by decide), free .mocked, occurrences_append_of_last last (by decide),
        occurrences_stem, if_neg kept.symm]
  have named : '(' ∉ temp.name ++ [':'] := List.not_mem_append (temp.not_mem_name (by decide)) (by decide)
  rw [bindless.introductions_eq, (marker_guardOpening number).cut (by decide), unguarded_of named, Nat.add_zero]

theorem neutral_giveBack (temp : Temp) : Neutral ("return ".toList ++ temp.name) :=
  neutral_append.2 ⟨by decide, temp.neutral⟩

end LineProbe
