import LineProbe.Proofs.Text

/-!
# Occurrences of a text

How often a text occurs in another one.
-/

namespace LineProbe.Text

def hits (test : Text → Bool) : Text → Nat
  | [] => 0
  | c :: rest => (if test (c :: rest) then 1 else 0) + hits test rest

def occurrences (part text : Text) : Nat :=
  hits (startsWith · part) text

theorem startsWith_iff : startsWith text part ↔ part <+: text :=
  List.isPrefixOf_iff_prefix

theorem startsWith_cons_of_ne (begins : part.head? = some d) (other : c ≠ d) (rest : Text) :
    startsWith (c :: rest) part = false := by
  obtain ⟨tail, rfl⟩ := List.head?_eq_some_iff.1 begins
  rw [Bool.eq_false_iff, ne_eq, startsWith_iff, List.cons_prefix_cons]
  exact fun same => other same.1.symm

theorem hits_mono (le : ∀ text, test text → test' text) (text : Text) : hits test text ≤ hits test' text := by
  induction text with
  | nil => exact Nat.le_refl 0
  | cons c rest ih =>
    refine Nat.add_le_add ?_ ih
    split
    · next passes => rw [if_pos (le _ passes)]
    · exact Nat.zero_le _

theorem hits_append (same : ∀ text, test (text ++ last) = test text) (first : Text) :
    hits test (first ++ last) = hits test first + hits test last := by
  induction first with
  | nil => simp [hits]
  | cons c rest ih =>
    have here := same (c :: rest)
    rw [List.cons_append] at here ⊢
    rw [hits, hits, here, ih, Nat.add_assoc]

theorem hits_append_of_fail (fail : ∀ c ∈ first, ∀ rest, test (c :: rest) = false) (last : Text) :
    hits test (first ++ last) = hits test last := by
  induction first with
  | nil => rfl
  | cons c rest ih =>
    rw [List.forall_mem_cons] at fail
    rw [List.cons_append, hits, fail.1, if_neg Bool.false_ne_true, Nat.zero_add, ih fail.2]

theorem occurrences_cons :
    occurrences part (c :: text) = (if startsWith (c :: text) part then 1 else 0) + occurrences part text :=
  rfl

theorem occurrences_cons_of_not (other : ¬ part <+: c :: text) :
    occurrences part (c :: text) = occurrences part text := by
  rw [occurrences_cons, if_neg (mt startsWith_iff.1 other), Nat.zero_add]

/-! ## Cutting -/

theorem occurrences_add_le (part first last : Text) :
    occurrences part first + occurrences part last ≤ occurrences part (first ++ last) := by
  induction first with
  | nil => simp [occurrences, hits]
  | cons c rest ih =>
    have here : (if startsWith (c :: rest) part then 1 else 0) ≤
        if startsWith (c :: (rest ++ last)) part then 1 else 0 := by
      split
      · next starts =>
        have longer : part <+: c :: (rest ++ last) := (startsWith_iff.1 starts).trans (List.prefix_append (c :: rest) _)
        rw [if_pos (startsWith_iff.2 longer)]
      · exact Nat.zero_le _
    rw [List.cons_append, occurrences_cons, occurrences_cons]
    omega

theorem occurrences_le_of_within (h : first <:+: text) (part : Text) : occurrences part first ≤ occurrences part text := by
  obtain ⟨before, behind, rfl⟩ := h
  have front := occurrences_add_le part (before ++ first) behind
  have back := occurrences_add_le part before first
  omega

theorem occurrences_le_root (h : root <+: part) (text : Text) : occurrences part text ≤ occurrences root text :=
  hits_mono (fun _ starts => startsWith_iff.2 (h.trans (startsWith_iff.1 starts))) text

theorem occurrences_cons_le (filled : part ≠ []) (c : Char) (text : Text) :
    occurrences (c :: part) text ≤ occurrences part text.tail := by
  induction text with
  | nil => exact Nat.le_refl 0
  | cons d rest ih =>
    cases rest with
    | nil =>
      rw [occurrences_cons_of_not]
      · exact Nat.le_refl 0
      · intro starts
        exact filled (List.prefix_nil.1 (List.cons_prefix_cons.1 starts).2)
    | cons e more =>
      rw [occurrences_cons, List.tail_cons, occurrences_cons]
      refine Nat.add_le_add ?_ ih
      split
      · next starts => rw [if_pos (startsWith_iff.2 (List.cons_prefix_cons.1 (startsWith_iff.1 starts)).2)]
      · exact Nat.zero_le _

theorem occurrences_le_tail (filled : part ≠ []) (before text : Text) :
    occurrences (before ++ part) text ≤ occurrences part text := by
  induction before with
  | nil => exact Nat.le_refl _
  | cons c before ih =>
    have tail : text.tail <:+: text := (List.tail_suffix text).isInfix
    calc occurrences (c :: before ++ part) text
        ≤ occurrences (before ++ part) text.tail := occurrences_cons_le (by simp [filled]) c text
      _ ≤ occurrences (before ++ part) text := occurrences_le_of_within tail _
      _ ≤ occurrences part text := ih

/-! ## Absence -/

theorem occurrences_le_of_holds (filled : sign ≠ []) (h : sign <:+: part) (text : Text) :
    occurrences part text ≤ occurrences sign text := by
  obtain ⟨before, behind, rfl⟩ := h
  rw [List.append_assoc]
  exact (occurrences_le_tail (by simp [filled]) before text).trans (occurrences_le_root (List.prefix_append _ _) text)

theorem occurrences_eq_zero_iff (filled : part ≠ []) : occurrences part text = 0 ↔ ¬ part <:+: text := by
  induction text with
  | nil =>
    refine iff_of_true rfl fun inside => filled ?_
    exact List.eq_nil_of_infix_nil inside
  | cons c rest ih =>
    rw [occurrences_cons, Nat.add_eq_zero_iff, ih, List.infix_cons_iff, not_or, ← startsWith_iff]
    simp

theorem occurrences_eq_zero (mem : c ∈ part) (absent : c ∉ text) : occurrences part text = 0 :=
  (occurrences_eq_zero_iff (List.ne_nil_of_mem mem)).2 fun inside => absent (inside.subset mem)

theorem occurrences_append_of_not_mem (begins : part.head? = some c) (absent : c ∉ first) (last : Text) :
    occurrences part (first ++ last) = occurrences part last :=
  hits_append_of_fail (fun _ mem => startsWith_cons_of_ne begins fun same => absent (same ▸ mem)) last

/-! ## Putting texts together -/

def Severs (part last : Text) : Prop :=
  ∀ rest, rest ≠ [] → rest <:+ part → ¬ rest <+: last

theorem severs_cons (foreign : c ∉ part) (last : Text) : Severs part (c :: last) := by
  intro rest filled ends starts
  obtain ⟨d, rest, rfl⟩ := List.exists_cons_of_ne_nil filled
  obtain ⟨rfl, -⟩ := List.cons_prefix_cons.1 starts
  exact foreign (ends.subset List.mem_cons_self)

theorem severs_of_last (ends : part.getLast? = some c) (absent : c ∉ last) : Severs part last := by
  rintro rest filled ⟨before, rfl⟩ starts
  obtain ⟨front, d, rfl⟩ := (List.eq_nil_or_concat rest).resolve_left filled
  rw [List.concat_eq_append] at *
  rw [← List.append_assoc, List.getLast?_concat, Option.some.injEq] at ends
  subst ends
  exact absent (starts.subset (by simp))

theorem Severs.prefix_append_iff (severs : Severs part last) : part <+: first ++ last ↔ part <+: first := by
  refine ⟨fun starts => ?_, fun starts => starts.trans (List.prefix_append _ _)⟩
  rcases List.prefix_or_prefix_of_prefix starts (List.prefix_append first last) with short | ⟨rest, rfl⟩
  · exact short
  · by_cases empty : rest = []
    · simp [empty]
    · exact absurd ((List.prefix_append_right_inj first).1 starts) (severs rest empty (List.suffix_append _ _))

theorem occurrences_append (severs : Severs part last) (first : Text) :
    occurrences part (first ++ last) = occurrences part first + occurrences part last :=
  hits_append (fun text => Bool.eq_iff_iff.2 (by rw [startsWith_iff, startsWith_iff, severs.prefix_append_iff])) first

theorem occurrences_cut (filled : part ≠ []) (foreign : c ∉ part) (first last : Text) :
    occurrences part (first ++ c :: last) = occurrences part first + occurrences part last := by
  rw [occurrences_append (severs_cons foreign last), occurrences_cons_of_not]
  obtain ⟨d, tail, rfl⟩ := List.exists_cons_of_ne_nil filled
  exact fun starts => foreign (by rw [(List.cons_prefix_cons.1 starts).1]; exact List.mem_cons_self)

theorem occurrences_append_of_last (ends : part.getLast? = some c) (absent : c ∉ last) (first : Text) :
    occurrences part (first ++ last) = occurrences part first := by
  rw [occurrences_append (severs_of_last ends absent), occurrences_eq_zero (List.mem_of_getLast? ends) absent,
    Nat.add_zero]

theorem occurrences_append_of_root (begins : root <+: part) (severs : Severs root last)
    (free : occurrences root first = 0) : occurrences part (first ++ last) = occurrences part last := by
  induction first with
  | nil => rfl
  | cons c rest ih =>
    rw [occurrences_cons, Nat.add_eq_zero_iff] at free
    rw [List.cons_append, occurrences_cons_of_not, ih free.2]
    intro starts
    have here : root <+: c :: rest := severs.prefix_append_iff.1 (begins.trans starts)
    simp [startsWith_iff.2 here] at free

end LineProbe.Text
