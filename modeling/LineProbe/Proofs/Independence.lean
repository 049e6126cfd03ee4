import LineProbe.Proofs.Tickets
import Mathlib.Data.List.Nodup

/-!
# Documents do not disturb each other

One registry keeps the sessions of all documents, numbers their tickets in one series and keeps one list of cancelled
tickets.
-/

namespace LineProbe.Registry

/-! ## Requests -/

inductive Request where
  | begin
  | isCurrent (run : Nat)
  | commit (run : Nat) (results : List LineResult)
  | results
  | contains
  | close
  | remove
  | cancel (run : Nat)
deriving DecidableEq, Repr

structure Operation where
  document : Text
  request : Request
deriving DecidableEq, Repr

inductive Answer where
  | token (token : Nat)
  | holds (answer : Bool)
  | results (results : List LineResult)
  | inFlight (run : Option Nat)
  | done
  | noRun
deriving DecidableEq, Repr

structure Office where
  registry : Registry
  tickets : List Ticket
deriving DecidableEq, Repr

namespace Office

def empty : Office :=
  ⟨.empty, []⟩

def ticketsOf (office : Office) (document : Text) : List Ticket :=
  office.tickets.filter (·.document = document)

def cancelled (office : Office) (document : Text) : List Bool :=
  (office.ticketsOf document).map office.registry.isCancelled

def onRun (office : Office) (document : Text) (run : Nat) (act : Ticket → Answer × Registry) : Answer × Office :=
  match (office.ticketsOf document)[run]? with
  | none => (.noRun, office)
  | some ticket => ((act ticket).1, { office with registry := (act ticket).2 })

def serve (office : Office) (document : Text) : Request → Answer × Office
  | .begin =>
    let (ticket, registry) := office.registry.begin document
    (.token ticket.token, ⟨registry, office.tickets ++ [ticket]⟩)
  | .isCurrent run =>
    office.onRun document run fun ticket => (.holds (office.registry.isCurrent ticket), office.registry)
  | .commit run results =>
    office.onRun document run fun ticket =>
      (.holds (office.registry.commit ticket results).1, (office.registry.commit ticket results).2)
  | .results => (.results (office.registry.results document), office)
  | .contains => (.holds (office.registry.contains document), office)
  | .close => (.done, { office with registry := office.registry.close document })
  | .remove =>
    let (ticket, registry) := office.registry.remove document
    (.inFlight (ticket.map (office.ticketsOf document).idxOf), { office with registry })
  | .cancel run => office.onRun document run fun ticket => (.done, office.registry.cancel ticket)

def after (office : Office) (history : List Operation) : Office :=
  history.foldl (fun office operation => (office.serve operation.document operation.request).2) office

end Office

structure Outcome where
  operation : Operation
  answer : Answer
  cancelled : List Bool
deriving DecidableEq, Repr

def outcomes (office : Office) : List Operation → List Outcome
  | [] => []
  | operation :: history =>
    let (answer, office) := office.serve operation.document operation.request
    ⟨operation, answer, office.cancelled operation.document⟩ :: outcomes office history

/-! ## Desks -/

structure Desk where
  session : Option (Nat × Option Nat × List LineResult)
  runs : List (Nat × Bool)

namespace Desk

def cancelAny (desk : Desk) : Option Nat → Desk
  | none => desk
  | some run => { desk with runs := desk.runs.modify run fun entry => (entry.1, true) }

def inFlight (desk : Desk) : Option Nat :=
  desk.session.bind (·.2.1)

def results (desk : Desk) : List LineResult :=
  (desk.session.map (·.2.2)).getD []

def isCurrent (desk : Desk) (token : Nat) : Bool :=
  desk.session.any (·.1 = token)

def serve (desk : Desk) : Request → Answer × Desk
  | .begin =>
    let token := (desk.session.map (·.1)).getD 0 + 1
    (.token token, ⟨some (token, some desk.runs.length, desk.results),
      (desk.cancelAny desk.inFlight).runs ++ [(token, false)]⟩)
  | .isCurrent run =>
    match desk.runs[run]? with
    | none => (.noRun, desk)
    | some entry => (.holds (desk.isCurrent entry.1), desk)
  | .commit run results =>
    match desk.runs[run]? with
    | none => (.noRun, desk)
    | some entry =>
      if desk.isCurrent entry.1 && !entry.2 then
        (.holds true, { desk with session := some (entry.1, none, results) })
      else (.holds false, desk)
  | .results => (.results desk.results, desk)
  | .contains => (.holds desk.session.isSome, desk)
  | .close => (.done, ⟨none, (desk.cancelAny desk.inFlight).runs⟩)
  | .remove => (.inFlight desk.inFlight, { desk with session := none })
  | .cancel run =>
    match desk.runs[run]? with
    | none => (.noRun, desk)
    | some _ => (.done, desk.cancelAny (some run))

end Desk

/-! ## The desk of a document -/

namespace Office

def view (office : Office) (document : Text) : Desk where
  session := (office.registry.session? document).map fun session =>
    (session.token, session.ticket.map (office.ticketsOf document).idxOf, session.results)
  runs := (office.ticketsOf document).map fun ticket => (ticket.token, office.registry.isCancelled ticket)

theorem cancelled_eq (office : Office) (document : Text) :
    office.cancelled document = (office.view document).runs.map Prod.snd := by
  simp [cancelled, view, Function.comp_def]

structure Orderly (office : Office) : Prop where
  numbered : office.tickets.map Ticket.number = List.range office.registry.issued
  flying : ∀ document ticket, (office.registry.session? document).bind Session.ticket = some ticket →
    ticket ∈ office.ticketsOf document
  cancelled : ∀ number ∈ office.registry.cancelled, number < office.registry.issued

namespace Orderly

variable {office : Office}

theorem distinct (h : office.Orderly) {other : Ticket} (mem : ticket ∈ office.tickets) (mem' : other ∈ office.tickets)
    (same : ticket.number = other.number) : ticket = other := by
  have nodup : (office.tickets.map Ticket.number).Nodup := by
    rw [h.numbered]
    exact List.nodup_range
  exact List.inj_on_of_nodup_map nodup mem mem' same

theorem number_lt (h : office.Orderly) (mem : ticket ∈ office.tickets) : ticket.number < office.registry.issued := by
  have listed : ticket.number ∈ office.tickets.map Ticket.number := List.mem_map_of_mem mem
  rwa [h.numbered, List.mem_range] at listed

theorem nodup_ticketsOf (h : office.Orderly) (document : Text) : (office.ticketsOf document).Nodup := by
  have nodup : office.tickets.Nodup := by
    apply List.Nodup.of_map Ticket.number
    rw [h.numbered]
    exact List.nodup_range
  exact nodup.filter _

end Orderly

theorem mem_ticketsOf {office : Office} :
    ticket ∈ office.ticketsOf document ↔ ticket ∈ office.tickets ∧ ticket.document = document := by
  simp [ticketsOf]

theorem runs_cancelAny {office : Office} (h : office.Orderly)
    (mem : ∀ ticket ∈ flying, ticket ∈ office.ticketsOf document) :
    (view { office with registry := office.registry.cancelAny flying } document).runs =
      ((office.view document).cancelAny (flying.map (office.ticketsOf document).idxOf)).runs := by
  cases flying with
  | none => rfl
  | some ticket =>
    have listed := mem ticket rfl
    apply List.ext_getElem?
    intro run
    change ((office.ticketsOf document).map _)[run]? = (((office.ticketsOf document).map _).modify _ _)[run]?
    rw [List.getElem?_modify, List.getElem?_map, List.getElem?_map]
    cases found : (office.ticketsOf document)[run]? with
    | none => rfl
    | some other =>
      have listed' : other ∈ office.ticketsOf document := List.mem_of_getElem? found
      -- Among the runs of one document a number, and so a flag, belongs to one run only.
      have same : ticket.number = other.number ↔ (office.ticketsOf document).idxOf ticket = run := by
        constructor
        · intro number
          obtain rfl := h.distinct (mem_ticketsOf.1 listed).1 (mem_ticketsOf.1 listed').1 number
          obtain ⟨bound, rfl⟩ := List.getElem?_eq_some_iff.1 found
          exact (h.nodup_ticketsOf document).idxOf_getElem run bound
        · rintro rfl
          rw [List.getElem?_idxOf listed] at found
          rw [Option.some.inj found]
      simp only [Option.map_some, Option.map_eq_map, isCancelled_cancelAny, Option.any_some]
      by_cases here : (office.ticketsOf document).idxOf ticket = run
      · simp [here, same.2 here]
      · have apart : ticket.number ≠ other.number := fun number => here (same.1 number)
        simp [here, apart]

theorem isCancelled_cancelAny_of_ne {office : Office} (h : office.Orderly) (differ : document ≠ other)
    (mem : ∀ ticket ∈ flying, ticket ∈ office.ticketsOf document) (listed : ticket ∈ office.ticketsOf other) :
    (office.registry.cancelAny flying).isCancelled ticket = office.registry.isCancelled ticket := by
  rw [isCancelled_cancelAny]
  cases flying with
  | none => rfl
  | some flown =>
    have apart : flown.number ≠ ticket.number := by
      intro number
      obtain ⟨mem, here⟩ := mem_ticketsOf.1 (mem flown rfl)
      obtain ⟨mem', there⟩ := mem_ticketsOf.1 listed
      rw [h.distinct mem mem' number] at here
      exact differ (here.symm.trans there)
    simp [apart]

theorem view_congr {office later : Office}
    (session : later.registry.session? document = office.registry.session? document)
    (tickets : later.ticketsOf document = office.ticketsOf document)
    (flags : ∀ ticket ∈ office.ticketsOf document,
      later.registry.isCancelled ticket = office.registry.isCancelled ticket) :
    later.view document = office.view document := by
  rw [view, view, session, tickets]
  congr 1
  apply List.map_congr_left
  intro ticket listed
  rw [flags ticket listed]

theorem results_view (office : Office) (document : Text) :
    (office.view document).results = office.registry.results document := by
  rw [Desk.results, view, Registry.results, Option.map_map]
  rfl

theorem inFlight_view (office : Office) (document : Text) :
    (office.view document).inFlight =
      ((office.registry.session? document).bind Session.ticket).map (office.ticketsOf document).idxOf := by
  cases found : office.registry.session? document <;> simp [Desk.inFlight, view, found]

theorem isCurrent_view (office : Office) (here : ticket.document = document) :
    (office.view document).isCurrent ticket.token = office.registry.isCurrent ticket := by
  rw [Desk.isCurrent, view, Registry.isCurrent, here]
  cases office.registry.session? document <;> rfl

theorem runs_view (office : Office) (document : Text) (run : Nat) :
    (office.view document).runs[run]? = (office.ticketsOf document)[run]?.map fun ticket =>
      (ticket.token, office.registry.isCancelled ticket) :=
  List.getElem?_map

/-! ## What a request does to the desks -/

section Begin

variable {office : Office} (h : office.Orderly) (document : Text)
include h

theorem begin_not_mem : (office.registry.begin document).1 ∉ office.tickets := by
  intro mem
  have less := h.number_lt mem
  rw [begin_number] at less
  exact Nat.lt_irrefl _ less

theorem isCancelled_begin_self :
    (office.registry.begin document).2.isCancelled (office.registry.begin document).1 = false := by
  have fresh : ∀ number ∈ office.registry.cancelled, number ≠ office.registry.issued :=
    fun number mem => Nat.ne_of_lt (h.cancelled number mem)
  have flown : ∀ ticket, (office.registry.session? document).bind Session.ticket = some ticket →
      ticket.number ≠ office.registry.issued :=
    fun ticket found => Nat.ne_of_lt (h.number_lt (mem_ticketsOf.1 (h.flying document ticket found)).1)
  rw [isCancelled_begin, isCancelled_cancelAny, begin_number, Bool.or_eq_false_iff]
  constructor
  · cases flight : (office.registry.session? document).bind Session.ticket with
    | none => rfl
    | some ticket => simp [flown ticket flight]
  · rw [isCancelled, begin_number, Bool.eq_false_iff, ne_eq, List.contains_iff_mem]
    exact fun mem => fresh _ mem rfl

theorem view_begin : (office.serve document .begin).2.view document = ((office.view document).serve .begin).2 := by
  have tickets : (office.serve document .begin).2.ticketsOf document =
      office.ticketsOf document ++ [(office.registry.begin document).1] := by
    simp [serve, ticketsOf, begin_document]
  have last : (office.ticketsOf document ++ [(office.registry.begin document).1]).idxOf
      (office.registry.begin document).1 = (office.ticketsOf document).length := by
    rw [List.idxOf_append_of_notMem fun mem => begin_not_mem h document (mem_ticketsOf.1 mem).1]
    simp
  have token : (office.registry.begin document).1.token =
      ((office.view document).session.map (·.1)).getD 0 + 1 := by
    rw [begin_ticket, view, Option.map_map]
    rfl
  have runs := runs_cancelAny h fun ticket mem => h.flying document ticket mem
  rw [← inFlight_view] at runs
  rw [view, tickets, Desk.serve]
  congr 1
  · change ((office.registry.begin document).2.session? document).map _ = _
    rw [session?_begin, if_pos rfl, Option.map_some, Option.map_some, last, token, results_view, view, List.length_map]
  · rw [List.map_append, ← runs, ← token, List.map_singleton]
    change _ ++ [(_, (office.registry.begin document).2.isCancelled _)] = _
    rw [isCancelled_begin_self h]
    congr 1
    apply List.map_congr_left
    intro ticket _
    exact congrArg _ (isCancelled_begin office.registry document ticket)

theorem view_begin_of_ne (differ : document ≠ other) :
    (office.serve document .begin).2.view other = office.view other := by
  apply view_congr
  · exact (session?_begin ..).trans (if_neg differ)
  · simp [serve, ticketsOf, begin_document, differ]
  · intro ticket listed
    refine (isCancelled_begin office.registry document ticket).trans ?_
    exact isCancelled_cancelAny_of_ne h differ (fun old flight => h.flying document old flight) listed

theorem orderly_begin : (office.serve document .begin).2.Orderly where
  numbered := by
    change (office.tickets ++ [(office.registry.begin document).1]).map _ =
      List.range (office.registry.begin document).2.issued
    rw [begin_issued, List.range_succ, List.map_append, h.numbered, List.map_singleton, begin_number]
  flying other ticket found := by
    change ((office.registry.begin document).2.session? other).bind _ = _ at found
    rw [session?_begin] at found
    rw [mem_ticketsOf]
    change ticket ∈ office.tickets ++ [_] ∧ _
    split at found
    · next same =>
      obtain rfl := Option.some.inj found
      exact ⟨List.mem_append_right _ (List.mem_singleton.2 rfl), (begin_document ..).trans same⟩
    · obtain ⟨mem, there⟩ := mem_ticketsOf.1 (h.flying other ticket found)
      exact ⟨List.mem_append_left _ mem, there⟩
  cancelled number mem := by
    change number ∈ (office.registry.begin document).2.cancelled at mem
    change number < (office.registry.begin document).2.issued
    rw [begin_cancelled] at mem
    rw [begin_issued]
    cases flight : (office.registry.session? document).bind Session.ticket with
    | none =>
      rw [flight] at mem
      exact Nat.lt_succ_of_lt (h.cancelled number mem)
    | some old =>
      rw [flight] at mem
      rcases List.mem_cons.1 mem with rfl | mem
      · exact Nat.lt_succ_of_lt (h.number_lt (mem_ticketsOf.1 (h.flying document old flight)).1)
      · exact Nat.lt_succ_of_lt (h.cancelled number mem)

end Begin

theorem view_commit {office : Office} (listed : ticket ∈ office.ticketsOf document)
    (results : List LineResult) : view { office with registry := (office.registry.commit ticket results).2 } document =
      if (office.registry.commit ticket results).1 then
        { office.view document with session := some (ticket.token, none, results) }
      else office.view document := by
  cases stored : (office.registry.commit ticket results).1 with
  | false => rw [commit_refused stored, if_neg Bool.false_ne_true]
  | true =>
    rw [if_pos rfl, view]
    congr 1
    · change ((office.registry.commit ticket results).2.session? document).map _ = _
      rw [session?_commit stored, if_pos (mem_ticketsOf.1 listed).2]
      rfl
    · apply List.map_congr_left
      intro other _
      rw [isCancelled, isCancelled, commit_cancelled]

theorem view_commit_of_ne {office : Office} (differ : document ≠ other) (listed : ticket ∈ office.ticketsOf document)
    (results : List LineResult) :
    view { office with registry := (office.registry.commit ticket results).2 } other = office.view other := by
  apply view_congr
  · cases stored : (office.registry.commit ticket results).1 with
    | false => rw [commit_refused stored]
    | true => rw [session?_commit stored, (mem_ticketsOf.1 listed).2, if_neg differ]
  · rfl
  · intro other _
    rw [isCancelled, isCancelled, commit_cancelled]

section Orderly

variable {office : Office} (h : office.Orderly)
include h

theorem orderly_commit (ticket : Ticket) (results : List LineResult) :
    Orderly { office with registry := (office.registry.commit ticket results).2 } where
  numbered := (commit_issued office.registry ticket results).symm ▸ h.numbered
  flying document old found := by
    cases stored : (office.registry.commit ticket results).1 with
    | false =>
      rw [commit_refused stored] at found
      exact h.flying document old found
    | true =>
      rw [session?_commit stored] at found
      split at found
      · cases found
      · exact h.flying document old found
  cancelled number mem := by
    change number < (office.registry.commit ticket results).2.issued
    rw [commit_issued]
    rw [commit_cancelled] at mem
    exact h.cancelled number mem

theorem orderly_remove (document : Text) :
    Orderly { office with registry := (office.registry.remove document).2 } where
  numbered := h.numbered
  flying other ticket found := by
    rw [session?_remove] at found
    split at found
    · cases found
    · exact h.flying other ticket found
  cancelled := h.cancelled

theorem orderly_cancelAny (mem : ∀ ticket ∈ flying, ticket ∈ office.tickets) :
    Orderly { office with registry := office.registry.cancelAny flying } := by
  cases flying with
  | none => exact h
  | some ticket =>
    refine ⟨h.numbered, h.flying, fun number listed => ?_⟩
    rcases List.mem_cons.1 listed with rfl | listed
    · exact h.number_lt (mem ticket rfl)
    · exact h.cancelled number listed

end Orderly

theorem onRun_of_none {office : Office} (act : Ticket → Answer × Registry)
    (missing : (office.ticketsOf document)[run]? = none) : office.onRun document run act = (.noRun, office) := by
  rw [onRun, missing]

theorem onRun_of_some {office : Office} (act : Ticket → Answer × Registry)
    (found : (office.ticketsOf document)[run]? = some ticket) :
    office.onRun document run act = ((act ticket).1, { office with registry := (act ticket).2 }) := by
  rw [onRun, found]

theorem view_serve_of_ne {office : Office} (h : office.Orderly) (differ : document ≠ other) (request : Request) :
    (office.serve document request).2.view other = office.view other := by
  have run_of_ne (run : Nat) (act : Ticket → Answer × Registry)
      (unseen : ∀ ticket ∈ office.ticketsOf document,
        view { office with registry := (act ticket).2 } other = office.view other) :
      (office.onRun document run act).2.view other = office.view other := by
    cases found : (office.ticketsOf document)[run]? with
    | none => rw [onRun_of_none act found]
    | some ticket =>
      rw [onRun_of_some act found]
      exact unseen ticket (List.mem_of_getElem? found)
  cases request with
  | begin => exact view_begin_of_ne h document differ
  | isCurrent run => exact run_of_ne run _ fun _ _ => rfl
  | commit run results => exact run_of_ne run _ fun ticket listed => view_commit_of_ne differ listed results
  | results | contains => rfl
  | close =>
    apply view_congr
    · exact (session?_close ..).trans (if_neg differ)
    · rfl
    · intro ticket listed
      refine (isCancelled_close office.registry document ticket).trans ?_
      exact isCancelled_cancelAny_of_ne h differ (fun old flight => h.flying document old flight) listed
  | remove =>
    apply view_congr
    · exact (session?_remove ..).trans (if_neg differ)
    · rfl
    · exact fun _ _ => rfl
  | cancel run =>
    refine run_of_ne run _ fun ticket listed => view_congr rfl rfl fun other listed' => ?_
    have mem : ∀ old ∈ some ticket, old ∈ office.ticketsOf document := by simpa using listed
    exact isCancelled_cancelAny_of_ne h differ mem listed'

theorem serve_view {office : Office} (h : office.Orderly) (document : Text) (request : Request) :
    (office.serve document request).1 = ((office.view document).serve request).1 ∧
      (office.serve document request).2.view document = ((office.view document).serve request).2 := by
  cases request with
  | begin =>
    refine ⟨?_, view_begin h document⟩
    change Answer.token (office.registry.begin document).1.token = Answer.token _
    rw [begin_ticket, view, Option.map_map]
    rfl
  | isCurrent run =>
    rw [serve, Desk.serve, runs_view]
    cases found : (office.ticketsOf document)[run]? with
    | none => rw [onRun_of_none _ found]; exact ⟨rfl, rfl⟩
    | some ticket =>
      have here := (mem_ticketsOf.1 (List.mem_of_getElem? found)).2
      rw [onRun_of_some _ found]
      exact ⟨congrArg Answer.holds (isCurrent_view office here).symm, rfl⟩
  | commit run results =>
    rw [serve, Desk.serve, runs_view]
    cases found : (office.ticketsOf document)[run]? with
    | none => rw [onRun_of_none _ found]; exact ⟨rfl, rfl⟩
    | some ticket =>
      have listed := List.mem_of_getElem? found
      have answer : (office.registry.commit ticket results).1 =
          ((office.view document).isCurrent ticket.token && !office.registry.isCancelled ticket) := by
        rw [Bool.eq_iff_iff, commit_eq_true, isCurrent_view office (mem_ticketsOf.1 listed).2]
        simp
      rw [onRun_of_some _ found, Option.map_some]
      dsimp only
      rw [view_commit listed, answer]
      split <;> simp_all
  | results => exact ⟨congrArg Answer.results (results_view office document).symm, rfl⟩
  | contains =>
    refine ⟨congrArg Answer.holds ?_, rfl⟩
    rw [contains, view, Option.isSome_map]
  | close =>
    refine ⟨rfl, ?_⟩
    have runs := runs_cancelAny h fun ticket mem => h.flying document ticket mem
    rw [← inFlight_view] at runs
    rw [Desk.serve, ← runs, view]
    congr 1
    · change ((office.registry.close document).session? document).map _ = _
      rw [session?_close, if_pos rfl]
      rfl
    · apply List.map_congr_left
      intro ticket _
      exact congrArg _ (isCancelled_close office.registry document ticket)
  | remove =>
    refine ⟨congrArg Answer.inFlight (inFlight_view office document).symm, ?_⟩
    rw [Desk.serve, view]
    congr 1
    change ((office.registry.remove document).2.session? document).map _ = _
    rw [session?_remove, if_pos rfl]
    rfl
  | cancel run =>
    rw [serve, Desk.serve, runs_view]
    cases found : (office.ticketsOf document)[run]? with
    | none => rw [onRun_of_none _ found]; exact ⟨rfl, rfl⟩
    | some ticket =>
      obtain ⟨bound, rfl⟩ := List.getElem?_eq_some_iff.1 found
      have mem : ∀ old ∈ some (office.ticketsOf document)[run], old ∈ office.ticketsOf document := by simp
      have runs := runs_cancelAny h mem
      rw [Option.map_some, (h.nodup_ticketsOf document).idxOf_getElem run bound] at runs
      rw [onRun_of_some _ found]
      refine ⟨rfl, ?_⟩
      change Desk.mk _ _ = Desk.mk _ _
      congr 1

theorem Orderly.serve {office : Office} (h : office.Orderly) (document : Text) (request : Request) :
    (office.serve document request).2.Orderly := by
  have on_run (run : Nat) (act : Ticket → Answer × Registry)
      (kept : ∀ ticket ∈ office.ticketsOf document, Orderly { office with registry := (act ticket).2 }) :
      (office.onRun document run act).2.Orderly := by
    cases found : (office.ticketsOf document)[run]? with
    | none => rwa [onRun_of_none act found]
    | some ticket =>
      rw [onRun_of_some act found]
      exact kept ticket (List.mem_of_getElem? found)
  cases request with
  | begin => exact orderly_begin h document
  | isCurrent run => exact on_run run _ fun _ _ => h
  | commit run results => exact on_run run _ fun ticket listed => orderly_commit h ticket results
  | results | contains => exact h
  | close =>
    exact orderly_cancelAny (orderly_remove h document) fun ticket flight =>
      (mem_ticketsOf.1 (h.flying document ticket flight)).1
  | remove => exact orderly_remove h document
  | cancel run =>
    refine on_run run _ fun ticket listed => ?_
    have mem : ∀ old ∈ some ticket, old ∈ office.tickets := by simpa using (mem_ticketsOf.1 listed).1
    exact orderly_cancelAny h mem

end Office

/-! ## Histories -/

open Office

theorem outcomes_cons (office : Office) (operation : Operation) (history : List Operation) :
    outcomes office (operation :: history) =
      ⟨operation, (office.serve operation.document operation.request).1,
        (office.serve operation.document operation.request).2.cancelled operation.document⟩ ::
        outcomes (office.serve operation.document operation.request).2 history :=
  rfl

theorem outcomes_filter (history : List Operation) (h : whole.Orderly) (h' : own.Orderly)
    (same : whole.view document = own.view document) :
    (outcomes whole history).filter (·.operation.document = document) =
        outcomes own (history.filter (·.document = document)) ∧
      (whole.after history).cancelled document =
        (own.after (history.filter (·.document = document))).cancelled document := by
  induction history generalizing whole own with
  | nil =>
    refine ⟨rfl, ?_⟩
    change whole.cancelled document = own.cancelled document
    rw [cancelled_eq, cancelled_eq, same]
  | cons operation history ih =>
    by_cases here : operation.document = document
    · subst here
      obtain ⟨answer, view⟩ := serve_view h operation.document operation.request
      obtain ⟨answer', view'⟩ := serve_view h' operation.document operation.request
      rw [← same] at answer' view'
      have next := view.trans view'.symm
      obtain ⟨later, flags⟩ :=
        ih (h.serve operation.document operation.request) (h'.serve operation.document operation.request) next
      rw [List.filter_cons_of_pos (by simp), outcomes_cons, outcomes_cons, List.filter_cons_of_pos (by simp), later,
        answer, answer', cancelled_eq, cancelled_eq, next]
      exact ⟨rfl, flags⟩
    · have next := (view_serve_of_ne h here operation.request).trans same
      obtain ⟨later, flags⟩ := ih (h.serve operation.document operation.request) h' next
      rw [List.filter_cons_of_neg (by simpa using here), outcomes_cons, List.filter_cons_of_neg (by simpa using here)]
      exact ⟨later, flags⟩

theorem orderly_empty : Office.empty.Orderly := by
  constructor <;> simp [Office.empty, Registry.empty, session?]

/-- A document cannot tell a history from its own part of it: the requests about it are answered alike, and the same
runs of it are cancelled, after each of these requests and at the end. -/
theorem documents_independent (history : List Operation) (document : Text) :
    (outcomes .empty history).filter (·.operation.document = document) =
        outcomes .empty (history.filter (·.document = document)) ∧
      (Office.empty.after history).cancelled document =
        (Office.empty.after (history.filter (·.document = document))).cancelled document :=
  outcomes_filter history orderly_empty orderly_empty rfl

example :
    (outcomes .empty [⟨"a", .begin⟩, ⟨"b", .begin⟩, ⟨"a", .begin⟩, ⟨"b", .commit 0 []⟩, ⟨"b", .close⟩,
        ⟨"a", .commit 1 []⟩]).map (fun outcome => (outcome.answer, outcome.cancelled)) =
      [(.token 1, [false]), (.token 1, [false]), (.token 2, [true, false]), (.holds true, [false]), (.done, [false]),
        (.holds true, [true, false])] := by
  decide

end LineProbe.Registry
