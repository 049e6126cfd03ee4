import LineProbe.Proofs.BlockingCalls
import LineProbe.Proofs.Origins

/-!
# The blocks of mocked functions

The block of a mocked function ends between two statements: what begins a statement among its lines does so in the
script, is deeper than the header, and the first line behind the block is not.
-/

namespace LineProbe

def LogicalStatement.opening (source : LogicalStatement) : Text :=
  source.lines.headD []

theorem opening_assemble (first : Int) (line : Text) (rest : List Text) : (assemble first line rest).opening = line :=
  headD_lines_assemble first line rest

namespace Instrument

open Text

variable {script : Script}

def Deeper (script : Script) (level : Nat) (index : Int) (lines : List Text) : Prop :=
  ∀ position line, .ok (position, line) ∈ statementHeads script.lines index lines →
    isBlankLine line = true ∨ level < script.indent.measure line

structure BlockCut (script : Script) (level : Nat) (index : Int) (lines : List Text) (count : Nat) : Prop where
  heads : statementHeads script.lines index lines =
    statementHeads script.lines index (lines.take count) ++ statementHeads script.lines (index + count) (lines.drop count)
  inside : Deeper script level index (lines.take count)
  outside : ∀ line ∈ (lines.drop count).head?, isBlankLine line = false ∧ script.indent.measure line ≤ level

section Heads

variable {level count : Nat}

theorem statementHeads_nil : statementHeads script.lines index [] = [] := by
  rw [statementHeads]

theorem statementHeads_blank (blank : isBlankLine line) :
    statementHeads script.lines index (line :: rest) =
      .ok (index, line) :: statementHeads script.lines (index + 1) rest := by
  rw [statementHeads, if_pos blank]

theorem statementHeads_visible (nonneg : 0 ≤ index) (visible : isBlankLine line = false) :
    statementHeads script.lines index (line :: rest) = .ok (index, line) ::
      statementHeads script.lines ((assemble index line rest).last + 1) (behind (assemble index line rest) rest) := by
  rw [statementHeads, if_neg (by simp [visible]), statementIn_of_nonneg nonneg]

theorem Deeper.cons {next : Int} {later all : List Text}
    (starts : isBlankLine line ∨ level < script.indent.measure line)
    (heads : statementHeads script.lines index all = .ok (index, line) :: statementHeads script.lines next later)
    (deeper : Deeper script level next later) : Deeper script level index all := by
  intro position text mem
  rw [heads] at mem
  rcases List.mem_cons.1 mem with same | mem
  · cases same
    exact starts
  · exact deeper position text mem

theorem BlockCut.nil : BlockCut script level index [] count := by
  refine ⟨?_, ?_, by simp⟩
  · rw [List.take_nil, List.drop_nil, statementHeads_nil, statementHeads_nil]
    rfl
  · intro position text mem
    rw [List.take_nil, statementHeads_nil] at mem
    cases mem

theorem BlockCut.stop (outside : isBlankLine line = false ∧ script.indent.measure line ≤ level) :
    BlockCut script level index (line :: rest) 0 := by
  refine ⟨?_, ?_, ?_⟩
  · rw [List.take_zero, List.drop_zero, Int.natCast_zero, Int.add_zero, statementHeads_nil]
    rfl
  · intro position text mem
    rw [List.take_zero, statementHeads_nil] at mem
    cases mem
  · rintro _ ⟨⟩
    exact outside

theorem BlockCut.blank (blank : isBlankLine line) (cut : BlockCut script level (index + 1) rest count) :
    BlockCut script level index (line :: rest) (count + 1) := by
  have position : index + ((count + 1 : Nat) : Int) = index + 1 + count := by omega
  have heads : statementHeads script.lines index (line :: rest.take count) =
      .ok (index, line) :: statementHeads script.lines (index + 1) (rest.take count) := statementHeads_blank blank
  refine ⟨?_, ?_, cut.outside⟩
  · rw [List.take_succ_cons, List.drop_succ_cons, statementHeads_blank blank, cut.heads, heads, position]
    rfl
  · rw [List.take_succ_cons]
    exact cut.inside.cons (.inl blank) heads

theorem BlockCut.statement (nonneg : 0 ≤ index) (visible : isBlankLine line = false)
    (deeper : level < script.indent.measure line)
    (cut : BlockCut script level ((assemble index line rest).last + 1) (behind (assemble index line rest) rest) count) :
    BlockCut script level index (line :: rest) ((assemble index line rest).extent + count + 1) := by
  have last := last_assemble index line rest
  have extent := extent_assemble index line rest
  have position : index + (((assemble index line rest).extent + count + 1 : Nat) : Int) =
      (assemble index line rest).last + 1 + count := by omega
  have same := assemble_take index line rest (Nat.le_add_right (assemble index line rest).extent count)
  have heads : statementHeads script.lines index (line :: rest.take ((assemble index line rest).extent + count)) =
      .ok (index, line) :: statementHeads script.lines ((assemble index line rest).last + 1)
        ((behind (assemble index line rest) rest).take count) := by
    rw [statementHeads_visible nonneg visible, same, behind, List.drop_take, Nat.add_sub_cancel_left]
  refine ⟨?_, ?_, ?_⟩
  · rw [List.take_succ_cons, List.drop_succ_cons, statementHeads_visible nonneg visible, cut.heads, heads, position,
      List.drop_drop]
    rfl
  · rw [List.take_succ_cons]
    exact cut.inside.cons (.inr deeper) heads
  · rw [List.drop_succ_cons, ← List.drop_drop]
    exact cut.outside

end Heads

theorem blockEnd?_cut (nonneg : 0 ≤ index)
    (stops : blockEnd? script.indent level (statementHeads script.lines index lines) = .ok stop) :
    BlockCut script level index lines (lengthBefore index lines stop) := by
  induction size : lines.length using Nat.strongRecOn generalizing index lines with
  | ind size_ ih =>
    subst size
    cases lines with
    | nil => exact .nil
    | cons first rest =>
      -- Behind the first `count + 1` lines the block ends where it ends behind the whole.
      have length {later : List Text} {position : Int} (count : Nat) (moved : position = index + 1 + count)
          (left : later = rest.drop count) (bounded : count ≤ rest.length)
          (stops : blockEnd? script.indent level (statementHeads script.lines position later) = .ok stop) :
          lengthBefore index (first :: rest) stop = count + lengthBefore position later stop + 1 := by
        cases stop with
        | none =>
          simp only [lengthBefore, left, List.length_cons, List.length_drop]
          omega
        | some stop =>
          obtain ⟨_, mem⟩ := blockEnd?_mem stops
          have bounds := statementHeads_bounds (by omega) mem
          simp only [lengthBefore]
          omega
      cases blank : isBlankLine first with
      | true =>
        rw [statementHeads_blank blank, blockEnd?] at stops
        simp only [blank, Bool.not_true, Bool.false_and, Bool.false_eq_true, if_false] at stops
        rw [length 0 (by omega) rfl (Nat.zero_le _) stops, Nat.zero_add]
        exact .blank blank (ih rest.length (by simp) (by omega) stops rfl)
      | false =>
        rw [statementHeads_visible nonneg blank, blockEnd?] at stops
        split at stops
        · next ends =>
          cases stops
          rw [lengthBefore, Int.sub_self]
          exact .stop (by simpa using ends)
        · next goes =>
          have last := last_assemble index first rest
          have extent := extent_assemble index first rest
          have taken := length_before_assemble_le index first rest
          rw [length _ (by omega) rfl (by omega) stops]
          refine .statement nonneg blank (by simpa [blank] using goes) (ih _ ?_ (by omega) stops rfl)
          simp only [List.length_cons, List.length_drop]
          omega

/-- Hoisted lines are not indented. -/
def Script.Flush (script : Script) : Prop :=
  ∀ index, script.hoisted.contains index = true → ∀ line ∈ script.lines[index.toNat]?, script.indent.measure line = 0

theorem mockedLength?_some (h : mockedLength? script st = some length) :
    ∃ stop, blockEnd? script.indent st.level (statementHeads script.lines (st.last + 1) st.after) = .ok stop ∧
      length = lengthBefore (st.last + 1) st.after stop := by
  unfold mockedLength? at h
  split at h
  · split at h
    · cases h
    · cases stops : blockEnd? script.indent st.level (statementHeads script.lines (st.last + 1) st.after) with
      | error cause =>
        rw [stops] at h
        cases h
      | ok stop =>
        rw [stops] at h
        cases h
        exact ⟨stop, rfl, rfl⟩
  · cases h

theorem drop_here {lines all : List Text} {cursor next : Int} (nonneg : 0 ≤ cursor) (count : Nat)
    (moved : next = cursor + count) (here : lines <+: all.drop cursor.toNat) :
    lines.drop count <+: all.drop next.toNat := by
  have : next.toNat = cursor.toNat + count := by omega
  obtain ⟨tail, whole⟩ := here
  rw [this, ← List.drop_drop, ← whole, List.drop_append]
  exact List.prefix_append _ _

theorem deeper_of_visits (flush : script.Flush) (nonneg : 0 ≤ index) (here : lines <+: script.lines.drop index.toNat)
    (deeper : Deeper script level index lines) :
    ∀ visit ∈ visits script index lines, level < script.indent.measure visit.source.opening := by
  induction size : lines.length using Nat.strongRecOn generalizing index lines with
  | ind size_ ih =>
    subst size
    intro visit mem
    cases lines with
    | nil =>
      rw [visits] at mem
      cases mem
    | cons first rest =>
      have tail {next : Int} (count : Nat) (moved : next = index + 1 + count) :
          rest.drop count <+: script.lines.drop next.toNat :=
        drop_here nonneg (count + 1) (by omega) here
      cases blank : isBlankLine first with
      | true =>
        rw [visits_skipped (.inr blank)] at mem
        refine ih rest.length (by simp) (by omega) (by simpa using tail 0 (by omega)) ?_ rfl visit mem
        intro position line later
        exact deeper position line (statementHeads_blank blank ▸ List.mem_cons_of_mem _ later)
      | false =>
        have heads : statementHeads script.lines index (first :: rest) = .ok (index, first) ::
            statementHeads script.lines ((assemble index first rest).last + 1)
              (behind (assemble index first rest) rest) := statementHeads_visible nonneg blank
        have deep : level < script.indent.measure first := by
          have := deeper index first (heads ▸ List.mem_cons_self)
          simpa [blank] using this
        have later : Deeper script level ((assemble index first rest).last + 1)
            (behind (assemble index first rest) rest) :=
          fun position line mem => deeper position line (heads ▸ List.mem_cons_of_mem _ mem)
        cases kept : script.hoisted.contains index with
        | true =>
          have found : first ∈ script.lines[index.toNat]? := by
            obtain ⟨more, whole⟩ := here
            rw [← List.head?_drop, ← whole]
            rfl
          exact absurd (flush index kept first found) (by omega)
        | false =>
          have last := last_assemble index first rest
          have extent := extent_assemble index first rest
          have there : behind (assemble index first rest) rest <+:
              script.lines.drop ((assemble index first rest).last + 1).toNat := tail _ (by omega)
          have shorter (count : Nat) : (rest.drop count).length < (first :: rest).length := by
            simp only [List.length_cons, List.length_drop]
            omega
          rw [visits, if_neg (by rw [kept, blank]; decide)] at mem
          dsimp only at mem
          split at mem
          · rcases List.mem_cons.1 mem with rfl | mem
            · rwa [opening_assemble]
            · exact ih _ (shorter _) (by omega) there later rfl visit mem
          · next mocked =>
            obtain ⟨stop, stops, rfl⟩ := mockedLength?_some mocked
            have cut : BlockCut script (script.indent.measure first) ((assemble index first rest).last + 1)
                (behind (assemble index first rest) rest) (lengthBefore ((assemble index first rest).last + 1)
                  (behind (assemble index first rest) rest) stop) := blockEnd?_cut (by omega) stops
            rcases List.mem_cons.1 mem with rfl | mem
            · rwa [opening_assemble]
            rcases List.mem_append.1 mem with mem | mem
            · refine ih _ (Nat.lt_of_le_of_lt (List.length_take_le' _ _) (shorter _)) (by omega)
                ((List.take_prefix _ _).trans there) (fun position line mem => later position line ?_) rfl visit mem
              rw [cut.heads]
              exact List.mem_append_left _ mem
            · refine ih _ (by simp only [List.length_cons, List.length_drop]; omega) (by omega)
                (drop_here (by omega) _ rfl there) (fun position line mem => later position line ?_) rfl visit mem
              rw [cut.heads]
              exact List.mem_append_right _ mem

end Instrument

end LineProbe
