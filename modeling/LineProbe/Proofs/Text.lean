import LineProbe.Text.Basic
import Mathlib.Data.List.TakeWhile

/-!
# Laws of texts

What trimming, cutting out a name, splitting into lines and writing numbers leave of a text: every operation takes the
text apart into pieces that give it back, and says which characters they consist of.
-/

namespace LineProbe.Text

instance (priority := 2000) decidableForallMem (property : Char → Prop) [DecidablePred property] (text : Text) :
    Decidable (∀ c ∈ text, property c) :=
  List.decidableBAll property text

/-! ## Trimming -/

theorem leadingBlanks_append_trimLeft (text : Text) : leadingBlanks text ++ trimLeft text = text :=
  List.takeWhile_append_dropWhile

theorem isBlankChar_of_mem_leadingBlanks (h : c ∈ leadingBlanks text) : isBlankChar c :=
  List.mem_takeWhile_imp h

theorem trimLeft_eq_cons (h : trimLeft text = c :: rest) : isBlankChar c = false := by
  have kept := List.head?_dropWhile_not isBlankChar text
  rw [trimLeft] at h
  simpa [h] using kept

theorem trimLeft_append_of_blank (h : ∀ c ∈ blanks, isBlankChar c) : trimLeft (blanks ++ text) = trimLeft text :=
  List.dropWhile_append_of_pos h

theorem trimLeft_append_cons (text rest : Text) (h : isBlankChar c = false) :
    trimLeft (text ++ c :: rest) = trimLeft text ++ c :: rest := by
  unfold trimLeft
  rw [List.dropWhile_append]
  split
  · next empty => rw [List.dropWhile_cons_of_neg (by simp [h]), List.isEmpty_iff.1 empty, List.nil_append]
  · rfl

theorem trimLeft_of_head (h : ∀ c ∈ text.head?, isBlankChar c = false) : trimLeft text = text := by
  cases text with
  | nil => rfl
  | cons c rest => simp [trimLeft, h c rfl]

theorem trimLeft_eq_nil_iff : trimLeft text = [] ↔ ∀ c ∈ text, isBlankChar c := by
  simp [trimLeft, List.dropWhile_eq_nil_iff]

theorem leadingBlanks_append_cons (rest : Text) (blank : ∀ d ∈ blanks, isBlankChar d) (h : isBlankChar c = false) :
    leadingBlanks (blanks ++ c :: rest) = blanks := by
  rw [leadingBlanks, List.takeWhile_append_of_pos blank, List.takeWhile_cons_of_neg (by simp [h]), List.append_nil]

def Starts (text : Text) : Prop :=
  ∃ c rest, text = c :: rest ∧ isBlankChar c = false

theorem Starts.append (h : Starts text) (rest : Text) : Starts (text ++ rest) := by
  obtain ⟨c, tail, rfl, notBlank⟩ := h
  exact ⟨c, tail ++ rest, rfl, notBlank⟩

theorem Starts.take (h : Starts text) (n : Nat) : Starts (text.take (n + 1)) := by
  obtain ⟨c, tail, rfl, notBlank⟩ := h
  exact ⟨c, tail.take n, rfl, notBlank⟩

theorem Starts.ne_nil (h : Starts text) : text ≠ [] := by
  obtain ⟨c, tail, rfl, -⟩ := h
  simp

theorem starts_trimLeft (h : trimLeft text ≠ []) : Starts (trimLeft text) := by
  obtain ⟨c, rest, starts⟩ := List.exists_cons_of_ne_nil h
  exact ⟨c, rest, starts, trimLeft_eq_cons starts⟩

theorem trimRight_append_blanks (text : Text) :
    ∃ blanks, trimRight text ++ blanks = text ∧ ∀ c ∈ blanks, isBlankChar c := by
  induction text with
  | nil => exact ⟨[], rfl, by simp⟩
  | cons c rest ih =>
    obtain ⟨blanks, whole, blank⟩ := ih
    rw [trimRight]
    split
    · next empty =>
      rw [empty, List.nil_append] at whole
      subst whole
      split
      · next h => exact ⟨c :: blanks, rfl, by simpa [h] using blank⟩
      · exact ⟨blanks, rfl, blank⟩
    · exact ⟨blanks, by rw [List.cons_append, whole], blank⟩

theorem trimRight_subset (text : Text) : trimRight text ⊆ text := by
  obtain ⟨blanks, whole, -⟩ := trimRight_append_blanks text
  intro c mem
  rw [← whole]
  exact List.mem_append_left _ mem

theorem isBlankChar_of_getLast?_trimRight (h : (trimRight text).getLast? = some c) : isBlankChar c = false := by
  induction text with
  | nil => cases h
  | cons d rest ih =>
    rw [trimRight] at h
    split at h
    · split at h
      · cases h
      · next notBlank =>
        cases h
        simpa using notBlank
    · next kept =>
      rw [List.getLast?_cons] at h
      cases last : (trimRight rest).getLast? with
      | none => exact absurd (List.getLast?_eq_none_iff.1 last) kept
      | some e =>
        rw [last] at h ih
        exact ih h

theorem trimRight_append_cons (text rest : Text) (h : isBlankChar c = false) :
    trimRight (text ++ c :: rest) = text ++ c :: trimRight rest := by
  induction text with
  | nil =>
    rw [List.nil_append, trimRight]
    cases trimmed : trimRight rest <;> simp [h]
  | cons d text ih =>
    rw [List.cons_append, trimRight, ih]
    simp

theorem trim_between_blanks (text : Text) :
    ∃ left right, text = left ++ trim text ++ right ∧ (∀ c ∈ left, isBlankChar c) ∧ ∀ c ∈ right, isBlankChar c := by
  obtain ⟨right, whole, blank⟩ := trimRight_append_blanks (trimLeft text)
  refine ⟨leadingBlanks text, right, ?_, fun c => isBlankChar_of_mem_leadingBlanks, blank⟩
  rw [List.append_assoc, trim, whole, leadingBlanks_append_trimLeft]

theorem trim_eq_nil_iff : trim text = [] ↔ ∀ c ∈ text, isBlankChar c := by
  constructor
  · intro empty
    obtain ⟨left, right, whole, blankLeft, blankRight⟩ := trim_between_blanks text
    rw [empty, List.append_nil] at whole
    intro c mem
    rw [whole, List.mem_append] at mem
    exact mem.elim (blankLeft c) (blankRight c)
  · intro blank
    rw [trim, trimLeft_eq_nil_iff.2 blank]
    rfl

theorem trim_within (text : Text) : trim text <:+: text := by
  obtain ⟨left, right, whole, -⟩ := trim_between_blanks text
  exact ⟨left, right, whole.symm⟩

theorem slice_within (text : Text) (start stop : Nat) : slice text start stop <:+: text :=
  (List.drop_suffix start _).isInfix.trans (List.take_prefix stop text).isInfix

theorem endsWithChar_concat (text : Text) (c : Char) : endsWithChar (text ++ [c]) c := by
  rw [endsWithChar, List.getLast?_concat]
  simp

theorem endsWithChar_append (first : Text) (h : last ≠ []) (c : Char) :
    endsWithChar (first ++ last) c = endsWithChar last c := by
  rw [endsWithChar, endsWithChar, List.getLast?_append, List.getLast?_eq_some_getLast h]
  rfl

theorem endsWithChar_eq_true (h : endsWithChar text c) : ∃ before, text = before ++ [c] := by
  rcases List.eq_nil_or_concat text with rfl | ⟨before, d, rfl⟩
  · cases h
  · rw [List.concat_eq_append] at h ⊢
    rw [endsWithChar, List.getLast?_concat, beq_iff_eq, Option.some.injEq] at h
    exact ⟨before, by rw [h]⟩

/-! ## Names -/

theorem isPrefix_nameAtStart (text : Text) : nameAtStart text <+: text := by
  cases text with
  | nil => exact List.prefix_rfl
  | cons c rest =>
    rw [nameAtStart]
    split
    · exact List.cons_prefix_cons.2 ⟨rfl, List.takeWhile_prefix _⟩
    · exact List.nil_prefix

theorem isWordChar_of_isNameStart (h : isNameStart c) : isWordChar c := by
  simp only [isNameStart, isWordChar, isAlphanumeric, Bool.or_eq_true, Char.isAlphanum] at h ⊢
  rcases h with h | h
  · exact .inl h
  · have ascii : c.toNat < 0x80 := by
      change (decide (_ ∧ _) || _ && _) at h
      simp only [Bool.or_eq_true, Bool.and_eq_true, decide_eq_true_eq] at h
      have toNat : c.toNat = c.val.toNat := rfl
      rw [toNat]
      rcases h with ⟨_, le⟩ | ⟨_, le⟩ <;>
      · have := UInt32.le_iff_toNat_le.1 le
        simp at this
        omega
    right
    rw [if_pos ascii]
    simp [h]

theorem isWordChar_of_mem_nameAtStart (h : c ∈ nameAtStart text) : isWordChar c := by
  cases text with
  | nil => cases h
  | cons d rest =>
    rw [nameAtStart] at h
    split at h
    · next start =>
      rcases List.mem_cons.1 h with rfl | mem
      · exact isWordChar_of_isNameStart start
      · exact List.mem_takeWhile_imp mem
    · cases h

theorem nameAtStart_of_head (h : ∀ c ∈ text.head?, isWordChar c = false) : nameAtStart text = [] := by
  cases text with
  | nil => rfl
  | cons c rest =>
    have other : isNameStart c = false := by
      by_contra start
      have := isWordChar_of_isNameStart (by simpa using start)
      rw [h c rfl] at this
      cases this
    simp [nameAtStart, other]

theorem nameAtStart_append (first : Text) (h : ∀ c ∈ last.head?, isWordChar c = false) :
    nameAtStart (first ++ last) = nameAtStart first := by
  cases first with
  | nil => exact nameAtStart_of_head h
  | cons c rest =>
    have stop : last.takeWhile isWordChar = [] := by
      cases last with
      | nil => rfl
      | cons d last => simp [h d rfl]
    have run : (rest ++ last).takeWhile isWordChar = rest.takeWhile isWordChar := by
      rw [List.takeWhile_append]
      split
      · next whole => rw [stop, List.append_nil, (List.takeWhile_sublist _).eq_of_length whole]
      · rfl
    rw [List.cons_append, nameAtStart, nameAtStart, run]

theorem isWordChar_of_isBlankChar (h : isBlankChar c) : isWordChar c = false := by
  have low : ∀ n < 0x21, isWordChar (Char.ofNat n) = false := by decide +kernel
  have row : ∀ k < 0xb, isWordChar (Char.ofNat (0x2000 + k)) = false := by decide +kernel
  have single : ∀ n ∈ [0x85, 0xa0, 0x1680, 0x2028, 0x2029, 0x202f, 0x205f, 0x3000],
      isWordChar (Char.ofNat n) = false := by
    decide +kernel
  rw [← Char.ofNat_toNat c]
  unfold isBlankChar at h
  dsimp only at h
  split at h
  · simp only [Bool.or_eq_true, Bool.and_eq_true, decide_eq_true_eq] at h
    exact low _ (by omega)
  · simp only [Bool.or_eq_true, Bool.and_eq_true, decide_eq_true_eq, beq_iff_eq] at h
    by_cases inRow : 0x2000 ≤ c.toNat ∧ c.toNat ≤ 0x200a
    · have := row (c.toNat - 0x2000) (by omega)
      rwa [show 0x2000 + (c.toNat - 0x2000) = c.toNat by omega] at this
    · exact single _ (by simp only [List.mem_cons, List.not_mem_nil, or_false]; omega)

theorem isBlankChar_of_isWordChar (h : isWordChar c) : isBlankChar c = false := by
  by_contra blank
  rw [isWordChar_of_isBlankChar (by simpa using blank)] at h
  cases h

/-! ## Lines -/

theorem splitAtChar_of_not_mem (h : mark ∉ text) : splitAtChar mark text = [text] := by
  induction text with
  | nil => rfl
  | cons c rest ih =>
    rw [List.mem_cons, not_or] at h
    rw [splitAtChar, if_neg (Ne.symm h.1), ih h.2]
    rfl

theorem splitAtChar_append (mark : Char) (first last : Text) :
    splitAtChar mark (first ++ mark :: last) = splitAtChar mark first ++ splitAtChar mark last := by
  induction first with
  | nil => simp [splitAtChar]
  | cons c rest ih =>
    rw [List.cons_append, splitAtChar, splitAtChar, ih]
    split
    · rfl
    · cases pieces : splitAtChar mark rest with
      | nil => exact absurd pieces (splitAtChar_ne_nil mark rest)
      | cons piece others => rfl

theorem splitAtChar_head (h : mark ∉ first) (rest : Text) :
    ∃ tail others, splitAtChar mark (first ++ rest) = (first ++ tail) :: others := by
  induction first with
  | nil =>
    obtain ⟨tail, others, whole⟩ := List.exists_cons_of_ne_nil (splitAtChar_ne_nil mark rest)
    exact ⟨tail, others, whole⟩
  | cons c first ih =>
    rw [List.mem_cons, not_or] at h
    obtain ⟨tail, others, whole⟩ := ih h.2
    refine ⟨tail, others, ?_⟩
    rw [List.cons_append, splitAtChar, if_neg (Ne.symm h.1), whole]
    rfl

theorem length_splitAtChar_eq_one_iff : (splitAtChar mark text).length = 1 ↔ mark ∉ text := by
  constructor
  · intro one mem
    obtain ⟨first, last, rfl⟩ := List.append_of_mem mem
    have pos (part : Text) : 0 < (splitAtChar mark part).length := List.length_pos_iff.2 (splitAtChar_ne_nil _ _)
    have := pos first
    have := pos last
    rw [splitAtChar_append, List.length_append] at one
    omega
  · intro free
    rw [splitAtChar_of_not_mem free]
    rfl

theorem not_mem_of_mem_splitAtChar (h : piece ∈ splitAtChar mark text) : mark ∉ piece := by
  induction text generalizing piece with
  | nil =>
    rw [splitAtChar, List.mem_singleton] at h
    simp [h]
  | cons c rest ih =>
    rw [splitAtChar] at h
    split at h
    · rcases List.mem_cons.1 h with rfl | mem
      · simp
      · exact ih mem
    · next other =>
      cases pieces : splitAtChar mark rest with
      | nil => exact absurd pieces (splitAtChar_ne_nil mark rest)
      | cons first others =>
        rw [pieces] at h ih
        rcases List.mem_cons.1 h with rfl | mem
        · rw [List.mem_cons, not_or]
          exact ⟨Ne.symm other, ih List.mem_cons_self⟩
        · exact ih (List.mem_cons_of_mem _ mem)

theorem join_cons (separator piece : Text) (some : pieces ≠ []) :
    join separator (piece :: pieces) = piece ++ separator ++ join separator pieces := by
  cases pieces with
  | nil => exact absurd rfl some
  | cons => rfl

theorem infix_join (separator : Text) (h : piece ∈ pieces) : piece <:+: join separator pieces := by
  induction pieces with
  | nil => cases h
  | cons first rest ih =>
    by_cases last : rest = []
    · subst last
      rw [List.mem_singleton.1 h]
      exact List.infix_rfl
    · rw [join_cons separator first last]
      rcases List.mem_cons.1 h with rfl | later
      · rw [List.append_assoc]
        exact (List.prefix_append _ _).isInfix
      · exact (ih later).trans (List.suffix_append _ _).isInfix

theorem infix_of_mem_splitAtChar (h : piece ∈ splitAtChar mark text) : piece <:+: text := by
  have inside := infix_join [mark] h
  rwa [join_splitAtChar] at inside

theorem splitNewlines_joinLines (text : Text) (texts : List Text) :
    splitNewlines (joinLines (text :: texts)) = (text :: texts).flatMap splitNewlines := by
  induction texts generalizing text with
  | nil => simp [joinLines, join]
  | cons next rest ih =>
    have joined : joinLines (text :: next :: rest) = text ++ '\n' :: joinLines (next :: rest) := by
      simp [joinLines, join]
    rw [joined, splitNewlines, splitAtChar_append, List.flatMap_cons]
    exact congrArg (splitNewlines text ++ ·) (ih next)

theorem flatMap_splitNewlines {lines : List Text} (h : ∀ line ∈ lines, '\n' ∉ line) :
    lines.flatMap splitNewlines = lines := by
  induction lines with
  | nil => rfl
  | cons line rest ih =>
    rw [List.flatMap_cons, ih fun text mem => h text (List.mem_cons_of_mem _ mem), splitNewlines,
      splitAtChar_of_not_mem (h line List.mem_cons_self)]
    rfl

theorem newline_not_mem_splitLines (h : line ∈ splitLines text) : '\n' ∉ line := by
  induction text using splitLines.induct generalizing line with
  | case1 =>
    rw [splitLines, List.mem_singleton] at h
    simp [h]
  | case2 rest ih =>
    rw [splitLines] at h
    rcases List.mem_cons.1 h with rfl | mem
    · simp
    · exact ih mem
  | case3 rest _ ih =>
    rw [splitLines.eq_3 _ _ (by simp), if_pos rfl] at h
    rcases List.mem_cons.1 h with rfl | mem
    · simp
    · exact ih mem
  | case4 c rest notReturn other ih =>
    rw [splitLines.eq_3 _ _ notReturn, if_neg other] at h
    cases pieces : splitLines rest with
    | nil =>
      rw [pieces, consFirst, List.mem_singleton] at h
      subst h
      simpa using Ne.symm other
    | cons first others =>
      rw [pieces] at h ih
      rcases List.mem_cons.1 h with rfl | mem
      · rw [List.mem_cons, not_or]
        exact ⟨Ne.symm other, ih List.mem_cons_self⟩
      · exact ih (List.mem_cons_of_mem _ mem)

/-! ## Numbers -/

theorem isDigit_of_mem_ofNat (h : c ∈ ofNat n) : c.isDigit :=
  Nat.isDigit_of_mem_toDigits (by decide) (by decide) h

/-! ## Tables -/

theorem find?_filter_name {α : Type} (table : List (Text × α)) (name other : Text) :
    (table.filter (·.1 ≠ name)).find? (·.1 = other) = if name = other then none else table.find? (·.1 = other) := by
  rw [List.find?_filter]
  by_cases here : name = other
  · simp [here]
  · rw [if_neg here]
    congr 1
    funext entry
    by_cases there : entry.1 = other <;> simp [there, Ne.symm here]

end LineProbe.Text
