import LineProbe.Proofs.Debouncing
import LineProbe.Proofs.Tickets
import LineProbe.Server.Basic

/-!
# What a closed document still does

A run of a document goes through three phases: its timer runs, its task waits, and it is under way.
-/

namespace LineProbe

namespace Registry

theorem commit_of_closed {registry : Registry} (closed : registry.session? ticket.document = none)
    (results : List LineResult) : (registry.commit ticket results).1 = false := by
  rw [commit, closed]

theorem commit_of_cancelled {registry : Registry} (cancelled : registry.isCancelled ticket) (results : List LineResult) :
    (registry.commit ticket results).1 = false := by
  by_contra stored
  have valid := (commit_eq_true.1 (by simpa using stored)).2
  simp [cancelled] at valid

end Registry

namespace Server

/-! ## The event loop -/

structure ActiveRun where
  ticket : Ticket
  source : Text
deriving DecidableEq

structure Loop where
  server : Server
  active : List ActiveRun

namespace Loop

def start : Loop :=
  ⟨.start, []⟩

inductive Event where
  | edited (document : Text)
  | wrote (document text : Text)
  | waited (millis : Int)
  | fired (timer : Timer Unit)
  | began (document : Text)
  | finished (run : ActiveRun) (results : List LineResult)
  | failed (run : ActiveRun) (message : Text)
  | closed (document : Text)
deriving DecidableEq

def close (loop : Loop) (document : Text) : Loop :=
  { loop with server := loop.server.close document }

def takeUp (loop : Loop) (document : Text) : Loop :=
  ⟨{ (loop.server.beginRun document).2 with tasks := loop.server.tasks.erase document },
    ⟨(loop.server.beginRun document).1, loop.server.source document⟩ :: loop.active⟩

def fire (loop : Loop) (timer : Timer Unit) : Loop :=
  { loop with server := { loop.server with
    debouncer := loop.server.debouncer.fire timer, tasks := loop.server.tasks ++ [timer.key] } }

inductive Happens : Loop → Event → Loop → Prop where
  | edit {loop : Loop} {workspace : Workspace} {document : Text} {scheduled : Server}
      (settings : loop.server.schedule workspace document = .ok scheduled) :
      Happens loop (.edited document) { loop with server := scheduled }
  | refuse {loop : Loop} {workspace : Workspace} {document : Text} {failure : Failure}
      (settings : loop.server.schedule workspace document = .error failure) : Happens loop (.edited document) loop
  | write (loop : Loop) (document text : Text) :
      Happens loop (.wrote document text) { loop with server := loop.server.setSource document text }
  | wait (loop : Loop) (millis : Int) : Happens loop (.waited millis)
      { loop with server := { loop.server with debouncer := loop.server.debouncer.wait millis } }
  | fire {loop : Loop} {timer : Timer Unit} (due : timer ∈ loop.server.debouncer.due) :
      Happens loop (.fired timer) (loop.fire timer)
  | begin {loop : Loop} {document : Text} (waiting : document ∈ loop.server.tasks) :
      Happens loop (.began document) (loop.takeUp document)
  | finish {loop : Loop} {run : ActiveRun} (running : run ∈ loop.active) (results : List LineResult) :
      Happens loop (.finished run results)
        ⟨loop.server.finishRun run.ticket run.source results, loop.active.erase run⟩
  | fail {loop : Loop} {run : ActiveRun} (running : run ∈ loop.active) (message : Text) :
      Happens loop (.failed run message) ⟨loop.server.notify (.message message), loop.active.erase run⟩
  | close (loop : Loop) (document : Text) : Happens loop (.closed document) (loop.close document)

inductive Reaches : Loop → List Event → Loop → Prop where
  | refl (loop : Loop) : Reaches loop [] loop
  | step {loop middle last : Loop} {event : Event} {events : List Event} (next : Happens loop event middle)
      (later : Reaches middle events last) : Reaches loop (event :: events) last

theorem Reaches.append (h : Reaches loop events middle) (next : Reaches middle later last) :
    Reaches loop (events ++ later) last := by
  induction h with
  | refl => exact next
  | step first _ ih => exact .step first (ih next)

theorem schedule_ok {server scheduled : Server} (settings : server.schedule workspace document = .ok scheduled) :
    ∃ delay, scheduled = { server with debouncer := (server.debouncer.setDelay delay).schedule document () } := by
  rw [schedule] at settings
  cases config : workspace.runConfig Config.fileName [] with
  | error failure =>
    rw [config] at settings
    cases settings
  | ok config' =>
    rw [config] at settings
    cases settings
    exact ⟨config'.debounce, rfl⟩

/-! ## Runs under way -/

structure Tracked (registry : Registry) (active : List ActiveRun) : Prop where
  numbered : ∀ run ∈ active, run.ticket.number < registry.issued
  distinct : (active.map (·.ticket.number)).Nodup
  owned : ∀ run ∈ active, registry.isCancelled run.ticket = true ∨
    (registry.session? run.ticket.document).bind Session.ticket = some run.ticket

namespace Tracked

variable {registry : Registry} {active : List ActiveRun}

theorem cancelled (h : Tracked registry active) {run : ActiveRun} (running : run ∈ active) (document : Text) :
    (registry.cancelAny ((registry.session? document).bind Session.ticket)).isCancelled run.ticket ∨
      document ≠ run.ticket.document ∧
        (registry.session? run.ticket.document).bind Session.ticket = some run.ticket := by
  rw [Registry.isCancelled_cancelAny]
  rcases h.owned run running with cancelled | owned
  · simp [cancelled]
  · by_cases here : document = run.ticket.document
    · simp [here, owned]
    · exact .inr ⟨here, owned⟩

theorem begin (h : Tracked registry active) (document source : Text) :
    Tracked (registry.begin document).2 (⟨(registry.begin document).1, source⟩ :: active) where
  numbered run running := by
    rw [Registry.begin_issued]
    rcases List.mem_cons.1 running with rfl | running
    · simp [Registry.begin_number]
    · exact Nat.lt_succ_of_lt (h.numbered run running)
  distinct := by
    simp only [List.map_cons, List.nodup_cons, Registry.begin_number]
    refine ⟨fun listed => ?_, h.distinct⟩
    obtain ⟨run, running, number⟩ := List.mem_map.1 listed
    exact Nat.ne_of_lt (h.numbered run running) number
  owned run running := by
    rw [Registry.isCancelled_begin, Registry.session?_begin]
    rcases List.mem_cons.1 running with rfl | running
    · simp [Registry.begin_document]
    · rcases h.cancelled running document with cancelled | ⟨differ, owned⟩
      · exact .inl cancelled
      · exact .inr (by simp [differ, owned])

theorem close (h : Tracked registry active) (document : Text) : Tracked (registry.close document) active where
  numbered run running := by
    have issued : (registry.close document).issued = registry.issued := by
      rw [Registry.close, Registry.remove]
      cases (registry.session? document).bind Session.ticket <;> rfl
    exact issued ▸ h.numbered run running
  distinct := h.distinct
  owned run running := by
    rw [Registry.isCancelled_close, Registry.session?_close]
    rcases h.cancelled running document with cancelled | ⟨differ, owned⟩
    · exact .inl cancelled
    · exact .inr (by simp [differ, owned])

theorem drop (h : Tracked registry active) (run : ActiveRun) : Tracked registry (active.erase run) where
  numbered other running := h.numbered other (List.mem_of_mem_erase running)
  distinct := h.distinct.sublist (List.erase_sublist.map _)
  owned other running := h.owned other (List.mem_of_mem_erase running)

theorem finish (h : Tracked registry active) {run : ActiveRun} (running : run ∈ active) (results : List LineResult) :
    Tracked (registry.commit run.ticket results).2 (active.erase run) where
  numbered other mem := by
    rw [Registry.commit_issued]
    exact (h.drop run).numbered other mem
  distinct := (h.drop run).distinct
  owned other mem := by
    rw [Registry.isCancelled, Registry.commit_cancelled]
    rcases (h.drop run).owned other mem with cancelled | owned
    · exact .inl cancelled
    · refine .inr ?_
      cases stored : (registry.commit run.ticket results).1 with
      | false => rwa [Registry.commit_refused stored]
      | true =>
        rw [Registry.session?_commit stored]
        have known := (h.owned run running).resolve_left (by simp [(Registry.commit_eq_true.1 stored).2])
        -- The session forgets the run that commits, and no other run of the document was known to it.
        have differ : run.ticket.document ≠ other.ticket.document := by
          intro same
          rw [← same, known] at owned
          have equal : other = run :=
            List.inj_on_of_nodup_map h.distinct (List.mem_of_mem_erase mem) running
              (congrArg Ticket.number (Option.some.inj owned)).symm
          have absent := (List.Nodup.of_map _ h.distinct).not_mem_erase (a := run)
          exact absent (equal ▸ mem)
        rw [if_neg differ]
        exact owned

end Tracked

structure Orderly (loop : Loop) : Prop where
  timers : ∃ log, Debouncer.Runs log loop.server.debouncer
  tracked : Tracked loop.server.registry loop.active

theorem finishRun_registry (server : Server) (ticket : Ticket) (source : Text) (results : List LineResult) :
    (server.finishRun ticket source results).registry = (server.registry.commit ticket results).2 := by
  rw [finishRun]
  dsimp only
  split <;> rfl

theorem finishRun_frame (server : Server) (ticket : Ticket) (source : Text) (results : List LineResult) :
    (server.finishRun ticket source results).debouncer = server.debouncer ∧
      (server.finishRun ticket source results).tasks = server.tasks := by
  rw [finishRun]
  dsimp only
  split <;> exact ⟨rfl, rfl⟩

theorem Happens.orderly (next : Happens loop event later) (h : Orderly loop) : Orderly later := by
  obtain ⟨⟨log, timers⟩, tracked⟩ := h
  cases next with
  | edit settings =>
    obtain ⟨delay, rfl⟩ := schedule_ok settings
    exact ⟨⟨_, (timers.setDelay delay).schedule _ ()⟩, tracked⟩
  | refuse | write => exact ⟨⟨log, timers⟩, tracked⟩
  | wait millis => exact ⟨⟨_, timers.wait millis⟩, tracked⟩
  | fire due => exact ⟨⟨_, timers.fire (Debouncer.mem_due.1 due).1⟩, tracked⟩
  | begin waiting => exact ⟨⟨log, timers⟩, tracked.begin _ _⟩
  | finish running results =>
    refine ⟨⟨log, ?_⟩, ?_⟩
    · rwa [(finishRun_frame ..).1]
    · rw [finishRun_registry]
      exact tracked.finish running results
  | fail running message => exact ⟨⟨log, timers⟩, tracked.drop _⟩
  | close document => exact ⟨⟨_, timers.cancel document⟩, tracked.close document⟩

theorem Reaches.orderly (h : Reaches loop events later) (orderly : Orderly loop) : Orderly later := by
  induction h with
  | refl => exact orderly
  | step next _ ih => exact ih (next.orderly orderly)

theorem orderly_start : Orderly start :=
  ⟨⟨_, .start _⟩, by simp [start], by simp [start], by simp [start]⟩

/-! ## Letting time pass -/

theorem Reaches.fireAll (server : Server) (active : List ActiveRun) {fired : List (Timer Unit)}
    (due : ∀ timer ∈ fired, timer ∈ server.debouncer.due) (distinct : (fired.map Timer.number).Nodup) :
    Reaches ⟨server, active⟩ (fired.map .fired)
      ⟨{ server with
        debouncer := fired.foldl Debouncer.fire server.debouncer, tasks := server.tasks ++ fired.map Timer.key }, active⟩ := by
  induction fired generalizing server with
  | nil => simpa using Reaches.refl _
  | cons timer fired ih =>
    rw [List.map_cons, List.nodup_cons] at distinct
    apply Reaches.step (.fire (due timer List.mem_cons_self))
    rw [List.foldl_cons, List.map_cons, List.append_cons]
    apply ih _ _ distinct.2
    intro other mem
    have apart : other.number ≠ timer.number := fun same => distinct.1 (same ▸ List.mem_map_of_mem mem)
    obtain ⟨runs, time⟩ := Debouncer.mem_due.1 (due other (List.mem_cons_of_mem _ mem))
    exact Debouncer.mem_due.2 ⟨List.mem_filter.2 ⟨runs, by simpa using apart⟩, time⟩

theorem Orderly.advance (h : Orderly loop) (millis : Int) :
    Reaches loop (.waited millis :: (loop.server.debouncer.advance millis).1.map .fired)
      { loop with server := loop.server.advance millis } := by
  obtain ⟨⟨log, timers⟩, -⟩ := h
  apply Reaches.step (.wait loop millis)
  apply Reaches.fireAll
  · exact fun timer mem => mem
  · exact (timers.wait millis).fits.distinct_due

/-! ## After a document was closed -/

def shows (document : Text) : Notice → Bool
  | .diagnostics other _ => other = document
  | .message _ | .refresh => false

def shown (loop : Loop) (document : Text) : List Notice :=
  loop.server.notices.filter (shows document)

theorem shown_close (loop : Loop) (document other : Text) :
    (loop.close other).shown document =
      loop.shown document ++ if other = document then [.diagnostics document []] else [] := by
  change (loop.server.notices ++ [Notice.diagnostics other []]).filter (shows document) = _
  rw [List.filter_append]
  by_cases here : other = document <;> simp [shows, shown, here]

theorem shown_finish {loop : Loop} {run : ActiveRun} {active : List ActiveRun}
    (silent : run.ticket.document = document → (loop.server.registry.commit run.ticket results).1 = false) :
    (Loop.mk (loop.server.finishRun run.ticket run.source results) active).shown document = loop.shown document := by
  rw [shown, finishRun]
  dsimp only
  split
  · next stored =>
    have other : run.ticket.document ≠ document := fun here => by simp [silent here] at stored
    simp [notify, shown, shows, other]
  · rfl

theorem length_shown_finish (loop : Loop) (document : Text) (run : ActiveRun) (results : List LineResult)
    (active : List ActiveRun) :
    ((Loop.mk (loop.server.finishRun run.ticket run.source results) active).shown document).length ≤
      (loop.shown document).length + 1 := by
  rw [shown, finishRun]
  dsimp only
  split
  · by_cases here : run.ticket.document = document <;> simp [notify, shown, shows, here]
  · exact Nat.le_succ _

def live (document : Text) (registry : Registry) (active : List ActiveRun) : Nat :=
  active.countP fun run => run.ticket.document = document && !registry.isCancelled run.ticket

theorem live_le {registry later : Registry} (document : Text) (active : List ActiveRun)
    (kept : ∀ ticket, registry.isCancelled ticket → later.isCancelled ticket) :
    live document later active ≤ live document registry active := by
  apply List.countP_mono_left
  intro run _ counted
  simp only [Bool.and_eq_true, decide_eq_true_eq, Bool.not_eq_true'] at counted ⊢
  refine ⟨counted.1, ?_⟩
  cases cancelled : registry.isCancelled run.ticket with
  | false => rfl
  | true => simp [kept run.ticket cancelled] at counted

theorem live_cons_le (document : Text) (registry : Registry) (run : ActiveRun) (active : List ActiveRun) :
    live document registry (run :: active) ≤
      live document registry active + if run.ticket.document = document then 1 else 0 := by
  rw [live, List.countP_cons, ← live]
  apply Nat.add_le_add_left
  by_cases here : run.ticket.document = document
  · simp [here]
    split <;> omega
  · simp [here]

theorem live_erase (document : Text) (registry : Registry) {active : List ActiveRun} (running : run ∈ active)
    (here : run.ticket.document = document) (valid : registry.isCancelled run.ticket = false) :
    live document registry (active.erase run) + 1 = live document registry active := by
  rw [live, live, (List.perm_cons_erase running).countP_eq, List.countP_cons_of_pos]
  simp [here, valid]

theorem live_erase_le (document : Text) (registry : Registry) (run : ActiveRun) (active : List ActiveRun) :
    live document registry (active.erase run) ≤ live document registry active :=
  List.erase_sublist.countP_le

section Step

theorem Happens.isCancelled (next : Happens loop event later) (cancelled : loop.server.registry.isCancelled ticket) :
    later.server.registry.isCancelled ticket := by
  cases next with
  | edit settings =>
    obtain ⟨delay, rfl⟩ := schedule_ok settings
    exact cancelled
  | refuse | write | wait | fire | fail => exact cancelled
  | @begin document waiting =>
    change (loop.server.registry.begin document).2.isCancelled ticket
    simp [Registry.isCancelled_begin, Registry.isCancelled_cancelAny, cancelled]
  | finish =>
    rw [finishRun_registry, Registry.isCancelled, Registry.commit_cancelled]
    exact cancelled
  | close document =>
    change (loop.server.registry.close document).isCancelled ticket
    simp [Registry.isCancelled_close, Registry.isCancelled_cancelAny, cancelled]

theorem Happens.idle (next : Happens loop event later) (orderly : Orderly loop) (unedited : event ≠ .edited document)
    (idle : loop.server.debouncer.timersOf document = []) : later.server.debouncer.timersOf document = [] := by
  obtain ⟨⟨log, timers⟩, -⟩ := orderly
  cases next with
  | @edit _ other _ settings =>
    obtain ⟨delay, rfl⟩ := schedule_ok settings
    have differ : other ≠ document := fun same => unedited (same ▸ rfl)
    have runs := (timers.setDelay delay).schedule other ()
    rw [timers.fits.running] at idle
    rw [runs.fits.running, ← idle]
    simp [Debouncer.ownLog, Debouncer.Entry.about, Debouncer.timerFor, differ]
  | refuse | write | wait | begin | fail => exact idle
  | fire due =>
    change (loop.server.debouncer.fire _).timersOf document = []
    rw [(timers.fits.fire_frees (Debouncer.mem_due.1 due).1).running, idle, ite_self]
  | finish =>
    rw [(finishRun_frame ..).1]
    exact idle
  | close other =>
    change (loop.server.debouncer.cancel other).timersOf document = []
    rw [(timers.fits.cancel_frees other).running, idle, ite_self]

theorem Happens.count_tasks (next : Happens loop event later) (idle : loop.server.debouncer.timersOf document = []) :
    later.server.tasks.count document + [event].count (.began document) = loop.server.tasks.count document := by
  cases next with
  | edit settings =>
    obtain ⟨delay, rfl⟩ := schedule_ok settings
    simp
  | refuse | write | wait | fail | close => simp [Loop.close, Server.close, notify, setSource]
  | @fire timer due =>
    have differ : timer.key ≠ document := by
      intro here
      have listed := Debouncer.mem_timersOf.2 ⟨(Debouncer.mem_due.1 due).1, here⟩
      simp [idle] at listed
    simp [Loop.fire, differ]
  | @begin other waiting =>
    by_cases here : other = document
    · have some : 0 < loop.server.tasks.count document := List.count_pos_iff.2 (here ▸ waiting)
      simp [takeUp, here]
      omega
    · simp [takeUp, List.count_erase_of_ne (Ne.symm here), here]
  | finish =>
    rw [(finishRun_frame ..).2]
    simp

theorem Happens.shown_le (next : Happens loop event later) (document : Text) :
    (later.shown document).length + live document later.server.registry later.active ≤
      (loop.shown document).length + live document loop.server.registry loop.active +
        ([event].count (.closed document) + [event].count (.began document)) := by
  cases next with
  | edit settings =>
    obtain ⟨delay, rfl⟩ := schedule_ok settings
    simp [shown]
  | refuse | write | wait => simp [shown, setSource]
  | fire due => simp [shown, Loop.fire]
  | @begin other waiting =>
    have grows := live_cons_le document (loop.server.registry.begin other).2
      ⟨(loop.server.registry.begin other).1, loop.server.source other⟩ loop.active
    have fewer : live document (loop.server.registry.begin other).2 loop.active ≤
        live document loop.server.registry loop.active :=
      live_le document loop.active fun _ => (Happens.begin waiting).isCancelled
    change (loop.shown document).length + live document (loop.server.registry.begin other).2
      (⟨(loop.server.registry.begin other).1, loop.server.source other⟩ :: loop.active) ≤ _
    simp only [Registry.begin_document] at grows
    simp [List.count_singleton]
    omega
  | @finish run running results =>
    rw [finishRun_registry]
    have same : live document (loop.server.registry.commit run.ticket results).2 (loop.active.erase run) =
        live document loop.server.registry (loop.active.erase run) := by
      simp only [live, Registry.isCancelled, Registry.commit_cancelled]
    rw [same]
    by_cases stored : run.ticket.document = document ∧ (loop.server.registry.commit run.ticket results).1
    · have ended := live_erase document loop.server.registry running stored.1 (Registry.commit_eq_true.1 stored.2).2
      have once := length_shown_finish loop document run results (loop.active.erase run)
      omega
    · have ended := live_erase_le document loop.server.registry run loop.active
      rw [shown_finish (by simpa using stored)]
      omega
  | @fail run running message =>
    have ended := live_erase_le document loop.server.registry run loop.active
    simpa [shown, shows, notify] using ended
  | close other =>
    have fewer : live document (loop.server.registry.close other) loop.active ≤
        live document loop.server.registry loop.active :=
      live_le document loop.active fun _ => (Happens.close loop other).isCancelled
    change _ + live document (loop.server.registry.close other) loop.active ≤ _
    by_cases here : other = document
    · simp [shown_close, here] at fewer ⊢
      omega
    · simpa [shown_close, here] using fewer

theorem Happens.session?_eq_none (next : Happens loop event later) (unbegun : event ≠ .began document)
    (closed : loop.server.registry.session? document = none) : later.server.registry.session? document = none := by
  cases next with
  | edit settings =>
    obtain ⟨delay, rfl⟩ := schedule_ok settings
    exact closed
  | refuse | write | wait | fire | fail => exact closed
  | @begin other waiting =>
    have differ : other ≠ document := fun same => unbegun (same ▸ rfl)
    change (loop.server.registry.begin other).2.session? document = none
    rw [Registry.session?_begin, if_neg differ, closed]
  | @finish run running results =>
    rw [finishRun_registry]
    cases stored : (loop.server.registry.commit run.ticket results).1 with
    | false => rwa [Registry.commit_refused stored]
    | true =>
      have differ : run.ticket.document ≠ document := by
        rintro rfl
        simp [Registry.commit_of_closed closed] at stored
      rw [Registry.session?_commit stored, if_neg differ, closed]
  | close other =>
    change (loop.server.registry.close other).session? document = none
    rw [Registry.session?_close, closed, ite_self]

theorem Happens.shown_eq (next : Happens loop event later) (closed : loop.server.registry.session? document = none) :
    later.shown document =
      loop.shown document ++ List.replicate ([event].count (.closed document)) (.diagnostics document []) := by
  cases next with
  | edit settings =>
    obtain ⟨delay, rfl⟩ := schedule_ok settings
    simp [shown]
  | refuse | write | wait => simp [shown, setSource]
  | fire due => simp [shown, Loop.fire]
  | begin waiting => simp [shown, takeUp, beginRun]
  | @finish run running results =>
    rw [shown_finish]
    · simp
    · rintro rfl
      exact Registry.commit_of_closed closed results
  | fail running message => simp [shown, shows, notify]
  | close other =>
    rw [shown_close]
    by_cases here : other = document <;> simp [here]

end Step

/-! ## Silence -/

section Later

theorem Reaches.isCancelled (h : Reaches loop events later) (cancelled : loop.server.registry.isCancelled ticket) :
    later.server.registry.isCancelled ticket := by
  induction h with
  | refl => exact cancelled
  | step next _ ih => exact ih (next.isCancelled cancelled)

theorem Reaches.idle (h : Reaches loop events later) (orderly : Orderly loop) (unedited : .edited document ∉ events)
    (idle : loop.server.debouncer.timersOf document = []) :
    later.server.tasks.count document + events.count (.began document) = loop.server.tasks.count document := by
  induction h with
  | refl => rfl
  | @step _ _ _ event events next _ ih =>
    have first : event ≠ .edited document := fun same => unedited (same ▸ List.mem_cons_self)
    have counted := next.count_tasks idle
    have rest := ih (next.orderly orderly) (fun mem => unedited (List.mem_cons_of_mem _ mem))
      (next.idle orderly first idle)
    rw [← List.singleton_append, List.count_append]
    omega

theorem Reaches.shown_le (h : Reaches loop events later) (document : Text) :
    (later.shown document).length + live document later.server.registry later.active ≤
      (loop.shown document).length + live document loop.server.registry loop.active +
        (events.count (.closed document) + events.count (.began document)) := by
  induction h with
  | refl => rfl
  | @step _ _ _ event events next _ ih =>
    have first := next.shown_le document
    rw [← List.singleton_append, List.count_append, List.count_append]
    omega

theorem Reaches.unbegun (h : Reaches loop events later) (unbegun : .began document ∉ events)
    (closed : loop.server.registry.session? document = none) :
    later.server.registry.session? document = none ∧
      later.shown document = loop.shown document ++
        List.replicate (events.count (.closed document)) (.diagnostics document []) := by
  induction h with
  | refl => simp [closed]
  | @step loop middle _ event events next _ ih =>
    have first : event ≠ .began document := fun same => unbegun (same ▸ List.mem_cons_self)
    obtain ⟨session, notices⟩ := ih (fun mem => unbegun (List.mem_cons_of_mem _ mem)) (next.session?_eq_none first closed)
    refine ⟨session, ?_⟩
    rw [notices, next.shown_eq closed, List.append_assoc, List.replicate_append_replicate, ← List.count_append,
      List.singleton_append]

end Later

theorem Orderly.closed (h : Orderly loop) (document : Text) :
    (loop.close document).server.debouncer.timersOf document = [] ∧
      (loop.close document).server.registry.session? document = none ∧
      ∀ run ∈ loop.active, run.ticket.document = document →
        (loop.close document).server.registry.isCancelled run.ticket := by
  obtain ⟨⟨log, timers⟩, tracked⟩ := h
  refine ⟨?_, ?_, ?_⟩
  · change (loop.server.debouncer.cancel document).timersOf document = []
    rw [(timers.fits.cancel_frees document).running, if_pos rfl]
  · change (loop.server.registry.close document).session? document = none
    rw [Registry.session?_close, if_pos rfl]
  · intro run running here
    change (loop.server.registry.close document).isCancelled run.ticket
    rw [Registry.isCancelled_close]
    exact (tracked.cancelled running document).resolve_right fun other => other.1 here.symm

/-- After a document was closed, and unless it is edited again, its runs come from the tasks that waited, each of which
is shown at most once, and those that were under way are never committed. So it stays silent, apart from being cleared when it is closed again, if and only if none of its
tasks waited. -/
theorem silent_iff {before : List Event} {loop : Loop} (history : Reaches start before loop) (document : Text) :
    (∀ after later, Reaches (loop.close document) after later → .edited document ∉ after →
      later.server.tasks.count document + after.count (.began document) = loop.server.tasks.count document ∧
      (later.shown document).length ≤ ((loop.close document).shown document).length +
        (after.count (.closed document) + after.count (.began document)) ∧
      (∀ run ∈ loop.active, run.ticket.document = document →
        ∀ results, (later.server.registry.commit run.ticket results).1 = false) ∧
      (later.server.registry.contains document = true → .began document ∈ after)) ∧
    ((∀ after later, Reaches (loop.close document) after later → .edited document ∉ after →
      later.server.registry.contains document = false ∧
      later.shown document = (loop.close document).shown document ++
        List.replicate (after.count (.closed document)) (.diagnostics document [])) ↔
      document ∉ loop.server.tasks) := by
  have orderly := history.orderly orderly_start
  have orderly' := (Happens.close loop document).orderly orderly
  obtain ⟨idle, closed, ended⟩ := orderly.closed document
  refine ⟨fun after later h unedited => ⟨h.idle orderly' unedited idle, ?_, ?_, ?_⟩, ?_⟩
  · have none : live document (loop.close document).server.registry (loop.close document).active = 0 := by
      rw [live, List.countP_eq_zero]
      intro run running counted
      simp only [Bool.and_eq_true, decide_eq_true_eq, Bool.not_eq_true'] at counted
      simp [ended run running counted.1] at counted
    have bound := h.shown_le document
    omega
  · exact fun run running here => Registry.commit_of_cancelled (h.isCancelled (ended run running here))
  · intro opened
    by_contra unbegun
    have session := (h.unbegun unbegun closed).1
    simp [Registry.contains, session] at opened
  · constructor
    · intro silent waiting
      have quiet := (silent _ _ (.step (.begin waiting) (.refl _)) (by simp)).1
      simp [takeUp, beginRun, Registry.contains, Registry.session?_begin] at quiet
    · intro none after later h unedited
      have unbegun : .began document ∉ after := by
        have counted := h.idle orderly' unedited idle
        have zero : (loop.close document).server.tasks.count document = 0 := List.count_eq_zero.2 none
        exact List.count_eq_zero.1 (by omega)
      obtain ⟨session, notices⟩ := h.unbegun unbegun closed
      exact ⟨by simp [Registry.contains, session], notices⟩

def waiting : Loop :=
  let server := (Server.start.setSource "a" "1/0")
  Loop.fire ⟨{ server with debouncer := (server.debouncer.schedule "a" ()).wait 300 }, []⟩ ⟨0, "a", 300, ()⟩

theorem reaches_waiting :
    Reaches start [.wrote "a" "1/0", .edited "a", .waited 300, .fired ⟨0, "a", 300, ()⟩] waiting := by
  have settings : (Server.start.setSource "a" "1/0").schedule ⟨⟨[]⟩, [], "python"⟩ "a" =
      .ok { Server.start.setSource "a" "1/0" with debouncer := Server.start.debouncer.schedule "a" () } := rfl
  apply Reaches.step (.write start "a" "1/0")
  apply Reaches.step (.edit settings)
  apply Reaches.step (.wait _ 300)
  exact .step (.fire (Debouncer.mem_due.2 (by decide))) (.refl _)

theorem silent_iff_under_way :
    (waiting.takeUp "a").server.tasks = [] ∧
      ((waiting.takeUp "a").close "a").shown "a" = [.diagnostics "a" []] ∧
      (Loop.mk (((waiting.takeUp "a").close "a").server.finishRun ⟨"a", 1, 0⟩ "1/0" [⟨0, "E", true⟩]) []).shown "a" =
        [.diagnostics "a" []] := by
  have begun : Happens waiting (.began "a") (waiting.takeUp "a") := .begin (by decide)
  have silent := (silent_iff (reaches_waiting.append (.step begun (.refl _))) "a").2.2 (by decide)
  have running : ⟨⟨"a", 1, 0⟩, "1/0"⟩ ∈ ((waiting.takeUp "a").close "a").active := by decide
  exact ⟨rfl, rfl, (silent _ _ (.step (.finish running [⟨0, "E", true⟩]) (.refl _)) (by decide)).2⟩

/-- A document is closed while its task waits. The run begins and its results are shown all the same. -/
theorem shown_after_close :
    ∃ later, Reaches start [.wrote "a" "1/0", .edited "a", .waited 300, .fired ⟨0, "a", 300, ()⟩] waiting ∧
      Reaches (waiting.close "a") [.began "a", .finished ⟨⟨"a", 1, 0⟩, "1/0"⟩ [⟨0, "E", true⟩]] later ∧
      later.server.registry.contains "a" = true ∧
      later.shown "a" = [.diagnostics "a" [], .diagnostics "a" [⟨0, 3, "E"⟩]] := by
  refine ⟨_, reaches_waiting, .step (.begin (by decide)) (.step (.finish (by decide) _) (.refl _)), ?_, ?_⟩
  · decide
  · decide

end Loop

end Server

end LineProbe
