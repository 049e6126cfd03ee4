import LineProbe.Result.Fuse
import Mathlib.Data.List.Sort

/-!
# Results up to the last error

Below the last error every line gets a result, so that the results up to there can be found by their position.
-/

namespace LineProbe

/-! ## Ascending results -/

def LineResult.IsBefore (first second : LineResult) : Prop :=
  first.line < second.line

instance : Std.Irrefl LineResult.IsBefore :=
  ⟨fun result => Int.lt_irrefl result.line⟩

instance : Std.Antisymm LineResult.IsBefore :=
  ⟨fun _ _ before after => absurd before (Int.lt_asymm after)⟩

abbrev Ascending (results : List LineResult) : Prop :=
  results.Pairwise LineResult.IsBefore

theorem Ascending.eq_of_line (h : Ascending results) (mem : first ∈ results) (mem' : second ∈ results)
    (same : first.line = second.line) : first = second := by
  have distinct : (results.map LineResult.line).Nodup := List.pairwise_map.2 (h.imp Int.ne_of_lt)
  exact List.inj_on_of_nodup_map distinct mem mem' same

/-! ## Results by line -/

theorem line_resultAt (results : List LineResult) (line : Int) : (resultAt results line).line = line := by
  rw [resultAt]
  cases found : results.reverse.find? (·.line == line) with
  | none => rfl
  | some result => simpa using List.find?_some found

theorem resultAt_of_mem (ascending : Ascending results) (mem : result ∈ results) :
    resultAt results result.line = result := by
  rw [resultAt]
  cases found : results.reverse.find? (·.line == result.line) with
  | none => simpa using List.find?_eq_none.1 found result (by simpa using mem)
  | some other =>
    have here : other ∈ results := by simpa using List.mem_of_find?_eq_some found
    exact ascending.eq_of_line here mem (by simpa using List.find?_some found)

theorem resultAt_of_forall_ne (h : ∀ result ∈ results, result.line ≠ line) : resultAt results line = .empty line := by
  have missing : results.reverse.find? (·.line == line) = none := by
    rw [List.find?_eq_none]
    simpa using h
  rw [resultAt, missing]
  rfl

theorem lastLine_spec (some : results ≠ []) :
    (∃ result ∈ results, result.line = lastLine results) ∧ ∀ result ∈ results, result.line ≤ lastLine results := by
  have greatest : (results.map LineResult.line).max? = Option.some (lastLine results) := by
    cases results with
    | nil => exact absurd rfl some
    | cons => rfl
  rw [List.max?_eq_some_iff] at greatest
  simpa using greatest

/-! ## Filled results -/

structure Gap (results : List LineResult) (line : Int) : Prop where
  nonneg : 0 ≤ line
  below : ∃ error ∈ results, error.isError = true ∧ line < error.line
  free : ∀ result ∈ results, result.line ≠ line

/-- Results with an empty one in each gap. Up to an error, they stand at the positions of their lines. -/
structure Backfilled (results filled : List LineResult) : Prop where
  ascending : Ascending filled
  kept : results.Sublist filled
  dense : ∀ error ∈ results, error.isError = true →
    ∀ k : Nat, (k : Int) ≤ error.line → filled[k]?.map LineResult.line = some (k : Int)
  added : ∀ result, result ∈ filled ∧ result ∉ results ↔ ∃ line, Gap results line ∧ result = .empty line

theorem Backfilled.mem_iff (h : Backfilled results filled) :
    result ∈ filled ↔ result ∈ results ∨ ∃ line, Gap results line ∧ result = .empty line := by
  rw [← h.added]
  constructor
  · intro mem
    by_cases given : result ∈ results
    · exact .inl given
    · exact .inr ⟨mem, given⟩
  · rintro (given | new)
    · exact h.kept.subset given
    · exact new.1

theorem Backfilled.unique (first : Backfilled results filled) (second : Backfilled results filled') :
    filled = filled' :=
  first.ascending.eq_of_mem_iff second.ascending fun _ => first.mem_iff.trans second.mem_iff.symm

/-! ## Filling up -/

structure LastError (results : List LineResult) (last : LineResult) : Prop where
  mem : last ∈ results
  isError : last.isError = true
  greatest : ∀ error ∈ results, error.isError = true → error.line ≤ last.line

theorem backfill_of_forall_not_error (h : ∀ result ∈ results, result.isError = false) : backfill results = results := by
  have none : results.filter LineResult.isError = [] := by simpa using h
  rw [backfill, none]
  rfl

theorem exists_lastError (failed : ∃ error ∈ results, error.isError) :
    ∃ last, LastError results last ∧ backfill results =
      expandTo (results.filter (·.line < last.line + 1)) (last.line + 1) ++ results.filter (last.line + 1 ≤ ·.line) := by
  obtain ⟨error, mem, isError⟩ := failed
  have some : results.filter LineResult.isError ≠ [] := List.ne_nil_of_mem (List.mem_filter.2 ⟨mem, isError⟩)
  obtain ⟨⟨last, mem, line⟩, greatest⟩ := lastLine_spec some
  obtain ⟨mem, isError⟩ := List.mem_filter.1 mem
  refine ⟨last, ⟨mem, isError, fun error mem isError => ?_⟩, ?_⟩
  · rw [line]
    exact greatest error (List.mem_filter.2 ⟨mem, isError⟩)
  · rw [backfill, if_neg (by simpa using some), line]

section

variable {last : LineResult}

theorem resultAt_below (ascending : Ascending results) (bound : line < last.line + 1) :
    resultAt (results.filter (·.line < last.line + 1)) line = resultAt results line := by
  by_cases given : ∃ result ∈ results, result.line = line
  · obtain ⟨result, mem, rfl⟩ := given
    rw [resultAt_of_mem ascending mem, resultAt_of_mem (ascending.filter _)]
    exact List.mem_filter.2 ⟨mem, by simpa using bound⟩
  · have free : ∀ result ∈ results, result.line ≠ line := by simpa using given
    rw [resultAt_of_forall_ne free, resultAt_of_forall_ne fun result mem => free result (List.mem_filter.1 mem).1]

theorem mem_expandTo_below (ascending : Ascending results) (bound : 0 ≤ last.line + 1) :
    result ∈ expandTo (results.filter (·.line < last.line + 1)) (last.line + 1) ↔
      0 ≤ result.line ∧ result.line < last.line + 1 ∧ result = resultAt results result.line := by
  rw [expandTo, List.mem_map]
  constructor
  · rintro ⟨line, mem, rfl⟩
    have below : (line : Int) < last.line + 1 := by
      have := List.mem_range.1 mem
      omega
    rw [resultAt_below ascending below, line_resultAt]
    exact ⟨Int.natCast_nonneg line, below, rfl⟩
  · rintro ⟨nonneg, below, same⟩
    refine ⟨result.line.toNat, List.mem_range.2 (by omega), ?_⟩
    rw [Int.toNat_of_nonneg nonneg, resultAt_below ascending below, ← same]

theorem ascending_expandTo (results : List LineResult) (length : Int) : Ascending (expandTo results length) := by
  rw [expandTo, Ascending, List.pairwise_map]
  apply List.pairwise_lt_range.imp
  intro line later before
  rw [LineResult.IsBefore, line_resultAt, line_resultAt]
  exact Int.ofNat_lt.2 before

theorem getElem?_expandTo {k : Nat} (bound : (k : Int) < length) (rest : List LineResult) :
    (expandTo results length ++ rest)[k]?.map LineResult.line = some (k : Int) := by
  have inside : k < length.toNat := by omega
  rw [expandTo, List.getElem?_append_left (by simpa using inside), List.getElem?_map, List.getElem?_range inside]
  exact congrArg some (line_resultAt _ _)

theorem mem_filled_iff (ascending : Ascending results) (bound : 0 ≤ last.line + 1) :
    result ∈ expandTo (results.filter (·.line < last.line + 1)) (last.line + 1) ++
        results.filter (last.line + 1 ≤ ·.line) ↔
      (0 ≤ result.line ∧ result.line < last.line + 1 ∧ result = resultAt results result.line) ∨
        (result ∈ results ∧ last.line + 1 ≤ result.line) := by
  rw [List.mem_append, mem_expandTo_below ascending bound, List.mem_filter, decide_eq_true_iff]

theorem LastError.backfilled (nonneg : ∀ result ∈ results, 0 ≤ result.line) (ascending : Ascending results)
    (h : LastError results last) :
    Backfilled results (expandTo (results.filter (·.line < last.line + 1)) (last.line + 1) ++
      results.filter (last.line + 1 ≤ ·.line)) := by
  have bound : 0 ≤ last.line + 1 := Int.le_add_one (nonneg last h.mem)
  have filled : Ascending (expandTo (results.filter (·.line < last.line + 1)) (last.line + 1) ++
      results.filter (last.line + 1 ≤ ·.line)) := by
    refine List.pairwise_append.2 ⟨ascending_expandTo _ _, ascending.filter _, fun result below other above => ?_⟩
    have below := ((mem_expandTo_below ascending bound).1 below).2.1
    have above := of_decide_eq_true (List.mem_filter.1 above).2
    exact Int.lt_of_lt_of_le below above
  refine ⟨filled, ?_, fun error mem isError k reached => ?_, fun result => ?_⟩
  · apply List.sublist_of_subperm_of_pairwise (List.subperm_of_subset ascending.nodup ?_) ascending filled
    intro result mem
    rw [mem_filled_iff ascending bound]
    rcases Int.lt_or_le result.line (last.line + 1) with below | above
    · exact .inl ⟨nonneg result mem, below, (resultAt_of_mem ascending mem).symm⟩
    · exact .inr ⟨mem, above⟩
  · have last := h.greatest error mem isError
    exact getElem?_expandTo (by omega) _
  · rw [mem_filled_iff ascending bound]
    constructor
    · rintro ⟨⟨here, below, same⟩ | ⟨given, -⟩, new⟩
      · have free : ∀ other ∈ results, other.line ≠ result.line := by
          intro other mem line
          rw [← line, resultAt_of_mem ascending mem] at same
          exact new (same ▸ mem)
        have apart := free last h.mem
        rw [resultAt_of_forall_ne free] at same
        exact ⟨result.line, ⟨here, ⟨last, h.mem, h.isError, by omega⟩, free⟩, same⟩
      · exact absurd given new
    · rintro ⟨line, ⟨here, ⟨error, mem, isError, below⟩, free⟩, rfl⟩
      have last := h.greatest error mem isError
      refine ⟨.inl ⟨here, ?_, (resultAt_of_forall_ne free).symm⟩, fun given => free _ given rfl⟩
      change line < _
      omega

theorem backfilled_self (ascending : Ascending results)
    (full : ∀ line, ¬ Gap results line)
    (dense : ∀ error ∈ results, error.isError →
      ∀ k : Nat, (k : Int) ≤ error.line → results[k]?.map LineResult.line = some (k : Int)) :
    Backfilled results results where
  ascending := ascending
  kept := .refl _
  dense := dense
  added result := by
    constructor
    · rintro ⟨mem, new⟩
      exact absurd mem new
    · rintro ⟨line, gap, -⟩
      exact absurd gap (full line)

theorem backfilled_backfill (nonneg : ∀ result ∈ results, 0 ≤ result.line) (ascending : Ascending results) :
    Backfilled results (backfill results) := by
  by_cases failed : ∃ error ∈ results, error.isError
  · obtain ⟨last, h, same⟩ := exists_lastError failed
    rw [same]
    exact h.backfilled nonneg ascending
  · have sound : ∀ result ∈ results, result.isError = false := by simpa using failed
    rw [backfill_of_forall_not_error sound]
    apply backfilled_self ascending
    · rintro line ⟨-, ⟨error, mem, isError, -⟩, -⟩
      exact failed ⟨error, mem, isError⟩
    · intro error mem isError
      exact absurd ⟨error, mem, isError⟩ failed

theorem Backfilled.mem_of_isError (h : Backfilled results filled) (mem : error ∈ filled) (isError : error.isError) :
    error ∈ results := by
  rcases h.mem_iff.1 mem with given | ⟨line, -, rfl⟩
  · exact given
  · cases isError

theorem Backfilled.again (h : Backfilled results filled) : Backfilled filled filled := by
  have dense (error : LineResult) (mem : error ∈ filled) (isError : error.isError) :=
    h.dense error (h.mem_of_isError mem isError) isError
  apply backfilled_self h.ascending _ dense
  rintro line ⟨here, ⟨error, mem, isError, below⟩, free⟩
  obtain ⟨result, found, same⟩ := Option.map_eq_some_iff.1 (dense error mem isError line.toNat (by omega))
  exact free result (List.mem_of_getElem? found) (by omega)

end

/-- Filling up leaves the results as they are and puts an empty one into each gap. Without an error there is none, and
filling up again changes nothing. -/
theorem backfill_backfilled (results : List LineResult) (nonneg : ∀ result ∈ results, 0 ≤ result.line)
    (ascending : Ascending results) :
    Backfilled results (backfill results) ∧
      ((∀ result ∈ results, result.isError = false) → backfill results = results) ∧
      backfill (backfill results) = backfill results := by
  have filled := backfilled_backfill nonneg ascending
  have nonneg' : ∀ result ∈ backfill results, 0 ≤ result.line := by
    intro result mem
    rcases filled.mem_iff.1 mem with given | ⟨line, gap, rfl⟩
    · exact nonneg result given
    · exact gap.nonneg
  refine ⟨filled, backfill_of_forall_not_error, ?_⟩
  exact (backfilled_backfill nonneg' filled.ascending).unique filled.again

theorem backfill_backfilled_sample :
    Backfilled [⟨1, "a", false⟩, ⟨2, "b", true⟩, ⟨4, "c", true⟩, ⟨7, "d", false⟩]
        [.empty 0, ⟨1, "a", false⟩, ⟨2, "b", true⟩, .empty 3, ⟨4, "c", true⟩, ⟨7, "d", false⟩] ∧
      backfill [.empty 0, ⟨1, "a", false⟩, ⟨2, "b", true⟩, .empty 3, ⟨4, "c", true⟩, ⟨7, "d", false⟩] =
        [.empty 0, ⟨1, "a", false⟩, ⟨2, "b", true⟩, .empty 3, ⟨4, "c", true⟩, ⟨7, "d", false⟩] := by
  have known : backfill [⟨1, "a", false⟩, ⟨2, "b", true⟩, ⟨4, "c", true⟩, ⟨7, "d", false⟩] =
      [.empty 0, ⟨1, "a", false⟩, ⟨2, "b", true⟩, .empty 3, ⟨4, "c", true⟩, ⟨7, "d", false⟩] := by
    decide +kernel
  obtain ⟨filled, -, again⟩ := backfill_backfilled
    [⟨1, "a", false⟩, ⟨2, "b", true⟩, ⟨4, "c", true⟩, ⟨7, "d", false⟩] (by simp) (by simp [LineResult.IsBefore])
  rw [known] at filled again
  exact ⟨filled, again⟩

end LineProbe
