import LineProbe.Proofs.Text
import LineProbe.Session.Debounce
import Mathlib.Data.List.Nodup

/-!
# Only the last request of a key has an effect

What happens to a debouncer is kept in a log, the latest entry first.
-/

namespace LineProbe.Debouncer

variable {α : Type}

/-! ## Logs -/

inductive Entry (α : Type) where
  | scheduled (timer : Timer α)
  | cancelled (key : Text)
  | fired (timer : Timer α)
  | delayed (delay : Int)
  | waited (millis : Int)

def Entry.about (key : Text) : Entry α → Bool
  | .scheduled timer | .fired timer => timer.key = key
  | .cancelled other => other = key
  | .delayed _ | .waited _ => false

def ownLog (key : Text) (log : List (Entry α)) : List (Entry α) :=
  log.filter (·.about key)

def standing : List (Entry α) → Option (Timer α)
  | .scheduled timer :: _ => some timer
  | _ => none

def Entry.started? : Entry α → Option Nat
  | .scheduled timer => some timer.number
  | _ => none

def Entry.fired? : Entry α → Option Nat
  | .fired timer => some timer.number
  | _ => none

inductive Runs : List (Entry α) → Debouncer α → Prop where
  | start (delay : Int) : Runs [] (.start delay)
  | schedule {log : List (Entry α)} {debouncer : Debouncer α} (h : Runs log debouncer) (key : Text) (action : α) :
      Runs (.scheduled (debouncer.timerFor key action) :: log) (debouncer.schedule key action)
  | cancel {log : List (Entry α)} {debouncer : Debouncer α} (h : Runs log debouncer) (key : Text) :
      Runs (.cancelled key :: log) (debouncer.cancel key)
  | fire {log : List (Entry α)} {debouncer : Debouncer α} (h : Runs log debouncer) {timer : Timer α}
      (running : timer ∈ debouncer.timers) : Runs (.fired timer :: log) (debouncer.fire timer)
  | setDelay {log : List (Entry α)} {debouncer : Debouncer α} (h : Runs log debouncer) (delay : Int) :
      Runs (.delayed delay :: log) (debouncer.setDelay delay)
  | wait {log : List (Entry α)} {debouncer : Debouncer α} (h : Runs log debouncer) (millis : Int) :
      Runs (.waited millis :: log) (debouncer.wait millis)

/-! ## What a key waits for -/

theorem handle?_release (debouncer : Debouncer α) (key other : Text) :
    (debouncer.release key).handle? other = if key = other then none else debouncer.handle? other := by
  rw [release, handle?, handle?, Text.find?_filter_name]
  split <;> rfl

theorem handle?_cancel (debouncer : Debouncer α) (key other : Text) :
    (debouncer.cancel key).handle? other = if key = other then none else debouncer.handle? other := by
  rw [cancel]
  split
  · next absent =>
    split
    · next same => rw [← same, absent]
    · rfl
  · exact handle?_release debouncer key other

theorem handle?_launch (debouncer : Debouncer α) (timer : Timer α) (other : Text) :
    (debouncer.launch timer).handle? other = if timer.key = other then some timer.number else debouncer.handle? other := by
  have released := handle?_release debouncer timer.key other
  rw [handle?] at released
  rw [handle?, launch, List.find?_append, Option.map_or, released]
  by_cases here : timer.key = other
  · simp [here]
  · rw [if_neg here, if_neg here, List.find?_singleton, if_neg (by simpa using here)]
    exact Option.or_none

/-! ## Running timers -/

def timersOf (debouncer : Debouncer α) (key : Text) : List (Timer α) :=
  debouncer.timers.filter (·.key = key)

theorem mem_timersOf {debouncer : Debouncer α} :
    timer ∈ debouncer.timersOf key ↔ timer ∈ debouncer.timers ∧ timer.key = key := by
  simp [timersOf]

structure Fits (log : List (Entry α)) (debouncer : Debouncer α) : Prop where
  waiting : ∀ key, debouncer.handle? key = (standing (ownLog key log)).map Timer.number
  running : ∀ key, debouncer.timersOf key = (standing (ownLog key log)).toList
  distinct : (debouncer.timers.map Timer.number).Nodup
  numbered : ∀ timer ∈ debouncer.timers, timer.number ∈ log.filterMap Entry.started?
  fresh : ∀ number ∈ log.filterMap Entry.started?, number < debouncer.next
  startedOnce : (log.filterMap Entry.started?).Nodup
  firedOnce : (log.filterMap Entry.fired?).Nodup
  unfired : ∀ timer ∈ debouncer.timers, timer.number ∉ log.filterMap Entry.fired?
  spent : ∀ number ∈ log.filterMap Entry.fired?, number < debouncer.next

namespace Fits

variable {log : List (Entry α)}

theorem standing_of_mem (h : Fits log debouncer) (mem : timer ∈ debouncer.timers) :
    standing (ownLog timer.key log) = some timer := by
  have listed : timer ∈ debouncer.timersOf timer.key := mem_timersOf.2 ⟨mem, rfl⟩
  rw [h.running] at listed
  exact Option.mem_toList.1 listed

theorem timersOf_stop (h : Fits log debouncer) (mem : timer ∈ debouncer.timers) (key : Text) :
    (debouncer.stop timer.number).timersOf key = if timer.key = key then [] else debouncer.timersOf key := by
  have same {other : Timer α} (mem' : other ∈ debouncer.timers) (number : other.number = timer.number) :
      other = timer :=
    List.inj_on_of_nodup_map h.distinct mem' mem number
  change (debouncer.timers.filter _).filter _ = _
  rw [List.filter_filter]
  split
  · next here =>
    rw [List.filter_eq_nil_iff]
    intro other mem' kept
    simp only [Bool.and_eq_true, decide_eq_true_eq] at kept
    have stands := h.standing_of_mem mem'
    rw [kept.1, ← here, h.standing_of_mem mem] at stands
    exact kept.2 (congrArg Timer.number (Option.some.inj stands)).symm
  · next differ =>
    apply List.filter_congr
    intro other mem'
    by_cases there : other.key = key
    · have apart : other.number ≠ timer.number := fun number => differ (same mem' number ▸ there)
      simp [there, apart]
    · simp [there]

end Fits

structure Frees (key : Text) (debouncer later : Debouncer α) : Prop where
  waiting : ∀ other, later.handle? other = if key = other then none else debouncer.handle? other
  running : ∀ other, later.timersOf other = if key = other then [] else debouncer.timersOf other
  fewer : later.timers.Sublist debouncer.timers
  next : later.next = debouncer.next

namespace Fits

variable {log : List (Entry α)}

theorem fire_frees (h : Fits log debouncer) {timer : Timer α} (mem : timer ∈ debouncer.timers) :
    Frees timer.key debouncer (debouncer.fire timer) where
  waiting other := handle?_release (debouncer.stop timer.number) timer.key other
  running other := h.timersOf_stop mem other
  fewer := List.filter_sublist
  next := rfl

theorem cancel_frees (h : Fits log debouncer) (key : Text) : Frees key debouncer (debouncer.cancel key) := by
  have waits := h.waiting key
  have runs := h.running key
  cases stands : standing (ownLog key log) with
  | none =>
    -- Nothing waits under the key, so nothing runs for it.
    rw [stands] at waits runs
    have unchanged : debouncer.cancel key = debouncer := by
      rw [cancel, waits]
      rfl
    refine ⟨handle?_cancel debouncer key, fun other => ?_, by rw [unchanged], by rw [unchanged]⟩
    rw [unchanged]
    split
    · next same => exact same ▸ runs
    · rfl
  | some timer =>
    rw [stands] at waits runs
    have listed : timer ∈ debouncer.timersOf key := runs ▸ List.mem_singleton.2 rfl
    obtain ⟨mem, here⟩ := mem_timersOf.1 listed
    have stopped : debouncer.cancel key = (debouncer.release key).stop timer.number := by
      rw [cancel, waits]
      rfl
    refine ⟨handle?_cancel debouncer key, fun other => ?_, stopped ▸ List.filter_sublist, by rw [stopped]; rfl⟩
    rw [stopped, ← here]
    exact h.timersOf_stop mem other

theorem standing_ownLog_cons (about : ∀ other, entry.about other = decide (key = other))
    (unstarted : entry.started? = none) (other : Text) :
    standing (ownLog other (entry :: log)) = if key = other then none else standing (ownLog other log) := by
  rw [ownLog, List.filter_cons, about]
  split
  · next here =>
    rw [if_pos (by simpa using here)]
    cases entry with
    | scheduled timer => cases unstarted
    | cancelled | fired | delayed | waited => rfl
  · next differ => rw [if_neg (by simpa using differ), ownLog]

theorem free (h : Fits log debouncer) {key : Text} (frees : Frees key debouncer later) {entry : Entry α}
    (about : ∀ other, entry.about other = decide (key = other)) (unstarted : entry.started? = none)
    (ended : ∀ number ∈ entry.fired?, (∃ timer ∈ debouncer.timers, timer.number = number) ∧
      ∀ timer ∈ later.timers, timer.number ≠ number) : Fits (entry :: log) later where
  waiting other := by
    rw [standing_ownLog_cons about unstarted, frees.waiting, h.waiting]
    split <;> rfl
  running other := by
    rw [standing_ownLog_cons about unstarted, frees.running, h.running]
    split <;> rfl
  distinct := h.distinct.sublist (frees.fewer.map _)
  numbered timer mem := by
    rw [List.filterMap_cons_none unstarted]
    exact h.numbered timer (frees.fewer.subset mem)
  fresh number mem := by
    rw [List.filterMap_cons_none unstarted] at mem
    rw [frees.next]
    exact h.fresh number mem
  startedOnce := by
    rw [List.filterMap_cons_none unstarted]
    exact h.startedOnce
  firedOnce := by
    cases fired : entry.fired? with
    | none =>
      rw [List.filterMap_cons_none fired]
      exact h.firedOnce
    | some number =>
      obtain ⟨⟨timer, mem, rfl⟩, -⟩ := ended number fired
      rw [List.filterMap_cons_some fired, List.nodup_cons]
      exact ⟨h.unfired timer mem, h.firedOnce⟩
  unfired timer mem listed := by
    have early := h.unfired timer (frees.fewer.subset mem)
    cases fired : entry.fired? with
    | none =>
      rw [List.filterMap_cons_none fired] at listed
      exact early listed
    | some number =>
      rw [List.filterMap_cons_some fired, List.mem_cons] at listed
      exact listed.elim ((ended number fired).2 timer mem) early
  spent number mem := by
    rw [frees.next]
    cases fired : entry.fired? with
    | none =>
      rw [List.filterMap_cons_none fired] at mem
      exact h.spent number mem
    | some last =>
      rw [List.filterMap_cons_some fired, List.mem_cons] at mem
      rcases mem with rfl | mem
      · obtain ⟨⟨timer, mem, rfl⟩, -⟩ := ended number fired
        exact h.fresh _ (h.numbered timer mem)
      · exact h.spent number mem

theorem cancel (h : Fits log debouncer) (key : Text) : Fits (.cancelled key :: log) (debouncer.cancel key) :=
  h.free (h.cancel_frees key) (fun _ => rfl) rfl (by rintro _ ⟨⟩)

theorem fire (h : Fits log debouncer) {timer : Timer α} (mem : timer ∈ debouncer.timers) :
    Fits (.fired timer :: log) (debouncer.fire timer) := by
  apply h.free (h.fire_frees mem) (fun _ => rfl) rfl
  rintro _ ⟨⟩
  refine ⟨⟨timer, mem, rfl⟩, fun other mem' => ?_⟩
  simpa using (List.mem_filter.1 mem').2

theorem launch (h : Fits log debouncer) (frees : Frees timer.key debouncer later)
    (number : timer.number = debouncer.next) : Fits (.scheduled timer :: log) (later.launch timer) := by
  have unstarted : timer.number ∉ log.filterMap Entry.started? :=
    fun mem => Nat.lt_irrefl _ (number ▸ h.fresh _ mem)
  have unspent : timer.number ∉ log.filterMap Entry.fired? :=
    fun mem => Nat.lt_irrefl _ (number ▸ h.spent _ mem)
  have stands (other : Text) : standing (ownLog other (.scheduled timer :: log)) =
      if timer.key = other then some timer else standing (ownLog other log) := by
    rw [ownLog, List.filter_cons, Entry.about]
    split
    · next here => rw [if_pos (by simpa using here), standing]
    · next differ => rw [if_neg (by simpa using differ), ownLog]
  have cases_mem {other : Timer α} (mem : other ∈ (later.launch timer).timers) :
      other ∈ debouncer.timers ∨ other = timer := by
    rcases List.mem_append.1 mem with mem | mem
    · exact .inl (frees.fewer.subset mem)
    · exact .inr (List.mem_singleton.1 mem)
  constructor
  case waiting =>
    intro other
    rw [stands, handle?_launch, frees.waiting, h.waiting]
    split <;> rfl
  case running =>
    intro other
    change (later.timers ++ [timer]).filter _ = _
    rw [stands, List.filter_append, ← timersOf, frees.running, h.running]
    split
    · next here => simp [here]
    · next differ => simp [differ]
  case distinct =>
    change ((later.timers ++ [timer]).map Timer.number).Nodup
    rw [List.map_append, List.map_singleton, List.nodup_append]
    refine ⟨h.distinct.sublist (frees.fewer.map _), List.nodup_singleton _, ?_⟩
    rintro _ mem _ last rfl
    obtain ⟨other, mem', same⟩ := List.mem_map.1 mem
    rw [List.mem_singleton.1 last] at same
    exact unstarted (same ▸ h.numbered other (frees.fewer.subset mem'))
  case numbered =>
    intro other mem
    change other.number ∈ timer.number :: _
    rcases cases_mem mem with mem | rfl
    · exact List.mem_cons_of_mem _ (h.numbered other mem)
    · exact List.mem_cons_self
  case fresh =>
    intro other mem
    change other < timer.number + 1
    rcases List.mem_cons.1 mem with rfl | mem
    · exact Nat.lt_succ_self _
    · exact Nat.lt_succ_of_lt (number ▸ h.fresh other mem)
  case startedOnce => exact List.nodup_cons.2 ⟨unstarted, h.startedOnce⟩
  case firedOnce => exact h.firedOnce
  case unfired =>
    intro other mem
    rcases cases_mem mem with mem | rfl
    · exact h.unfired other mem
    · exact unspent
  case spent =>
    intro other mem
    change other < timer.number + 1
    exact Nat.lt_succ_of_lt (number ▸ h.spent other mem)

theorem start (delay : Int) : Fits [] (Debouncer.start delay : Debouncer α) := by
  constructor <;> simp [Debouncer.start, handle?, timersOf, ownLog, standing]

end Fits

theorem Runs.fits {log : List (Entry α)} {debouncer : Debouncer α} (h : Runs log debouncer) : Fits log debouncer := by
  induction h with
  | start delay => exact .start delay
  | schedule _ key action ih => exact ih.launch (ih.cancel_frees key) rfl
  | cancel _ key ih => exact ih.cancel key
  | fire _ running ih => exact ih.fire running
  | setDelay _ delay ih | wait _ millis ih =>
    exact ⟨ih.waiting, ih.running, ih.distinct, ih.numbered, ih.fresh, ih.startedOnce, ih.firedOnce, ih.unfired, ih.spent⟩

theorem Runs.running_of_fired (h : Runs (later ++ .fired timer :: earlier) debouncer) :
    ∃ before : Debouncer α, Runs earlier before ∧ timer ∈ before.timers := by
  induction later generalizing debouncer with
  | nil =>
    cases h with
    | fire h running => exact ⟨_, h, running⟩
  | cons entry later ih =>
    cases h with
    | schedule h | cancel h | fire h | setDelay h | wait h => exact ih h

/-! ## Letting time pass -/

theorem mem_due {debouncer : Debouncer α} :
    timer ∈ debouncer.due ↔ timer ∈ debouncer.timers ∧ timer.due ≤ debouncer.now := by
  simp [due]

theorem Fits.distinct_due {log : List (Entry α)} {debouncer : Debouncer α} (h : Fits log debouncer) :
    (debouncer.due.map Timer.number).Nodup := by
  have sorted := List.mergeSort_perm (debouncer.timers.filter (·.due ≤ debouncer.now)) (·.due ≤ ·.due)
  apply (sorted.map Timer.number).nodup_iff.2
  exact h.distinct.sublist (List.filter_sublist.map _)

theorem Runs.fireAll (h : Runs log debouncer) (fired : List (Timer α))
    (running : ∀ timer ∈ fired, timer ∈ debouncer.timers) (distinct : (fired.map Timer.number).Nodup) :
    Runs (fired.reverse.map .fired ++ log) (fired.foldl Debouncer.fire debouncer) := by
  induction fired generalizing log debouncer with
  | nil => exact h
  | cons timer fired ih =>
    rw [List.map_cons, List.nodup_cons] at distinct
    rw [List.foldl_cons, List.reverse_cons, List.map_append, List.append_assoc]
    apply ih (h.fire (running timer List.mem_cons_self))
    · intro other mem
      have apart : other.number ≠ timer.number := fun same => distinct.1 (same ▸ List.mem_map_of_mem mem)
      exact List.mem_filter.2 ⟨running other (List.mem_cons_of_mem _ mem), by simpa using apart⟩
    · exact distinct.2

theorem Runs.advance {log : List (Entry α)} {debouncer : Debouncer α} (h : Runs log debouncer) (millis : Int) :
    Runs ((debouncer.advance millis).1.reverse.map .fired ++ .waited millis :: log) (debouncer.advance millis).2 := by
  apply (h.wait millis).fireAll
  · intro timer mem
    exact (mem_due.1 mem).1
  · exact (h.wait millis).fits.distinct_due

/-! ## Trailing debounce -/

/-- At every point a key has at most one running timer and waits exactly if it has one, and which one it has is
decided by the latest entry about that key. No timer is started or fires twice, and a timer fires only if nothing has
happened to its key since it was started. -/
theorem trailing_debounce {log : List (Entry α)} {debouncer : Debouncer α} (h : Runs log debouncer) :
    (∀ key, (debouncer.timersOf key).length ≤ 1 ∧
      (debouncer.pending key = true ↔ ∃ timer ∈ debouncer.timers, timer.key = key) ∧
      debouncer.timersOf key = (standing (ownLog key log)).toList) ∧
    (log.filterMap Entry.started?).Nodup ∧ (log.filterMap Entry.fired?).Nodup ∧
    ∀ later earlier timer, log = later ++ .fired timer :: earlier →
      ∃ between before, earlier = between ++ .scheduled timer :: before ∧
        ∀ entry ∈ between, entry.about timer.key = false := by
  have fits := h.fits
  refine ⟨fun key => ⟨?_, ?_, fits.running key⟩, fits.startedOnce, fits.firedOnce, ?_⟩
  · rw [fits.running]
    exact Option.length_toList_le
  · have waits : debouncer.pending key = (standing (ownLog key log)).isSome := by
      rw [pending, fits.waiting, Option.isSome_map]
    have runs (timer : Timer α) : timer ∈ debouncer.timers ∧ timer.key = key ↔ standing (ownLog key log) = some timer := by
      rw [← mem_timersOf, fits.running, Option.mem_toList]
    rw [waits, Option.isSome_iff_exists]
    exact exists_congr fun timer => (runs timer).symm
  · rintro later earlier timer rfl
    obtain ⟨before, early, running⟩ := h.running_of_fired
    have stands := early.fits.standing_of_mem running
    cases own : ownLog timer.key earlier with
    | nil =>
      rw [own] at stands
      cases stands
    | cons entry rest =>
      rw [own] at stands
      cases entry with
      | scheduled other =>
        obtain rfl := Option.some.inj stands
        obtain ⟨between, behind, whole, others, -, -⟩ := List.filter_eq_cons_iff.1 own
        exact ⟨between, behind, whole, fun entry mem => by simpa using others entry mem⟩
      | cancelled | fired | delayed | waited => cases stands

def rescheduled : Debouncer Nat :=
  (((((start 10).schedule "a" 0).schedule "b" 1).schedule "a" 2).fire ⟨2, "a", 10, 2⟩).schedule "a" 3

def rescheduledLog : List (Entry Nat) :=
  [.scheduled ⟨3, "a", 10, 3⟩, .fired ⟨2, "a", 10, 2⟩, .scheduled ⟨2, "a", 10, 2⟩, .scheduled ⟨1, "b", 10, 1⟩,
    .scheduled ⟨0, "a", 10, 0⟩]

theorem runs_rescheduled : Runs rescheduledLog rescheduled := by
  have waiting := (((Runs.start 10).schedule "a" 0).schedule "b" 1).schedule "a" 2
  have running : ⟨2, "a", 10, 2⟩ ∈ ((((start 10).schedule "a" 0).schedule "b" 1).schedule "a" 2).timers := by decide
  exact (waiting.fire running).schedule "a" 3

theorem trailing_debounce_rescheduled :
    (rescheduled.timersOf "a").length ≤ 1 ∧ rescheduled.pending "a" = true ∧ rescheduled.pending "b" = true ∧
      ∃ between before, rescheduledLog.drop 2 = between ++ .scheduled ⟨2, "a", 10, 2⟩ :: before ∧
        ∀ entry ∈ between, entry.about ("a" : Text) = false := by
  obtain ⟨keys, -, -, fired⟩ := trailing_debounce runs_rescheduled
  exact ⟨(keys "a").1, (keys "a").2.1.2 ⟨⟨3, "a", 10, 3⟩, by decide, rfl⟩,
    (keys "b").2.1.2 ⟨⟨1, "b", 10, 1⟩, by decide, rfl⟩,
    fired [.scheduled ⟨3, "a", 10, 3⟩] _ ⟨2, "a", 10, 2⟩ rfl⟩

end LineProbe.Debouncer
