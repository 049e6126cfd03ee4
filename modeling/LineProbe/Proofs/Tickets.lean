import LineProbe.Proofs.Text
import LineProbe.Session.Registry

/-!
# Which run may commit

The registry is used by several owners at once.
-/

namespace LineProbe.Registry

/-! ## Sessions by document -/

theorem find?_setSession (document other : Text) (session : Session) (sessions : List (Text × Session)) :
    ((setSession document session sessions).find? (·.1 = other)).map Prod.snd =
      if document = other then some session else (sessions.find? (·.1 = other)).map Prod.snd := by
  induction sessions with
  | nil => by_cases same : document = other <;> simp [setSession, same]
  | cons entry sessions ih =>
    rw [setSession]
    by_cases here : entry.1 = document
    · by_cases same : document = other <;> simp [here, same]
    · rw [if_neg here]
      by_cases there : entry.1 = other
      · have differ : document ≠ other := fun same => here (there.trans same.symm)
        simp [there, differ]
      · simpa [there] using ih

theorem session?_cancelAny (registry : Registry) (ticket : Option Ticket) (document : Text) :
    (registry.cancelAny ticket).session? document = registry.session? document := by
  cases ticket <;> rfl

theorem session?_begin (registry : Registry) (document other : Text) :
    (registry.begin document).2.session? other =
      if document = other then
        some ⟨(registry.begin document).1.token, some (registry.begin document).1, registry.results document⟩
      else registry.session? other := by
  have same : (registry.begin document).2.session? other = _ := find?_setSession document other _ _
  rw [same]
  by_cases here : document = other
  · simp only [here, if_true]
    cases found : registry.session? other <;> simp [begin, results, found]
  · simp only [here, if_false]
    exact session?_cancelAny registry _ other

theorem session?_remove (registry : Registry) (document other : Text) :
    (registry.remove document).2.session? other = if document = other then none else registry.session? other := by
  rw [remove, session?, session?, Text.find?_filter_name]
  split <;> rfl

theorem session?_close (registry : Registry) (document other : Text) :
    (registry.close document).session? other = if document = other then none else registry.session? other := by
  rw [close, session?_cancelAny, session?_remove]

theorem commit_eq_true {registry : Registry} {results : List LineResult} :
    (registry.commit ticket results).1 ↔ registry.isCurrent ticket ∧ registry.isCancelled ticket = false := by
  rw [commit, isCurrent]
  cases registry.session? ticket.document with
  | none => simp
  | some session =>
    dsimp only
    split
    · next holds => simpa using holds
    · next fails => simpa using fails

theorem session?_commit {registry : Registry} {results : List LineResult} (stored : (registry.commit ticket results).1)
    (other : Text) :
    (registry.commit ticket results).2.session? other =
      if ticket.document = other then some ⟨ticket.token, none, results⟩ else registry.session? other := by
  rw [commit] at stored ⊢
  cases found : registry.session? ticket.document with
  | none => simp [found] at stored
  | some session =>
    simp only [found] at stored ⊢
    split
    · next holds =>
      have token : session.token = ticket.token := by simp_all
      rw [← token]
      exact find?_setSession ticket.document other _ _
    · next fails => simp [fails] at stored

theorem commit_refused {registry : Registry} {results : List LineResult}
    (refused : (registry.commit ticket results).1 = false) : (registry.commit ticket results).2 = registry := by
  rw [commit] at refused ⊢
  split
  · rfl
  · next session found =>
    simp only [found] at refused
    split
    · next holds => simp [holds] at refused
    · rfl

theorem commit_issued (registry : Registry) (ticket : Ticket) (results : List LineResult) :
    (registry.commit ticket results).2.issued = registry.issued := by
  rw [commit]
  split
  · rfl
  · split <;> rfl

theorem commit_cancelled (registry : Registry) (ticket : Ticket) (results : List LineResult) :
    (registry.commit ticket results).2.cancelled = registry.cancelled := by
  rw [commit]
  split
  · rfl
  · split <;> rfl

/-! ## Logs -/

/-- What happened: a run began, a run asked to store its results and was answered, or a document was closed. -/
inductive Entry where
  | began (ticket : Ticket)
  | committed (ticket : Ticket) (results : List LineResult) (answer : Bool)
  | closed (document : Text)
deriving DecidableEq, Repr

/-- The run that began last, if the document has not been closed since. -/
def newest (document : Text) : List Entry → Option Ticket
  | [] => none
  | .began ticket :: log => if ticket.document = document then some ticket else newest document log
  | .closed other :: log => if other = document then none else newest document log
  | .committed .. :: log => newest document log

/-- The results that were stored last, if the document has not been closed since. -/
def shown (document : Text) : List Entry → List LineResult
  | [] => []
  | .committed ticket results true :: log => if ticket.document = document then results else shown document log
  | .committed _ _ false :: log => shown document log
  | .closed other :: log => if other = document then [] else shown document log
  | .began _ :: log => shown document log

def inFlight (document : Text) : List Entry → Option Ticket
  | [] => none
  | .began ticket :: log => if ticket.document = document then some ticket else inFlight document log
  | .committed ticket _ true :: log => if ticket.document = document then none else inFlight document log
  | .committed _ _ false :: log => inFlight document log
  | .closed other :: log => if other = document then none else inFlight document log

/-- Whether the document of a run was closed after the run began. -/
def closedSince (ticket : Ticket) : List Entry → Bool
  | [] => false
  | .began other :: log => other ≠ ticket && closedSince ticket log
  | .closed document :: log => document = ticket.document || closedSince ticket log
  | .committed .. :: log => closedSince ticket log

theorem newest_spec (h : newest document log = some ticket) :
    ticket.document = document ∧ Entry.began ticket ∈ log ∧ closedSince ticket log = false := by
  induction log with
  | nil => cases h
  | cons entry log ih =>
    cases entry with
    | began other =>
      rw [newest] at h
      split at h
      · next here =>
        cases h
        exact ⟨here, List.mem_cons_self, by simp [closedSince]⟩
      · obtain ⟨here, mem, since⟩ := ih h
        exact ⟨here, List.mem_cons_of_mem _ mem, by simp [closedSince, since]⟩
    | committed other results answer =>
      obtain ⟨here, mem, since⟩ := ih h
      exact ⟨here, List.mem_cons_of_mem _ mem, since⟩
    | closed other =>
      rw [newest] at h
      split at h
      · cases h
      · next differ =>
        obtain ⟨here, mem, since⟩ := ih h
        exact ⟨here, List.mem_cons_of_mem _ mem, by simp [closedSince, since, here, differ]⟩

theorem newest_of_inFlight (h : inFlight document log = some ticket) : newest document log = some ticket := by
  fun_induction inFlight document log <;> simp_all [newest]

theorem inFlight_spec (h : inFlight document log = some ticket) :
    ticket.document = document ∧ Entry.began ticket ∈ log ∧ closedSince ticket log = false :=
  newest_spec (newest_of_inFlight h)

/-! ## Interleavings -/

/-- The registry after a log of steps, with the tickets that closed documents had in flight and that have not been
cancelled yet. -/
inductive Interleaved : List Entry → List Ticket → Registry → Prop where
  | empty : Interleaved [] [] .empty
  | begin {log : List Entry} {pending : List Ticket} {registry : Registry} (h : Interleaved log pending registry)
      (document : Text) :
      Interleaved (.began (registry.begin document).1 :: log) pending (registry.begin document).2
  | commit {log : List Entry} {pending : List Ticket} {registry : Registry} (h : Interleaved log pending registry)
      {ticket : Ticket} (issued : .began ticket ∈ log) (results : List LineResult) :
      Interleaved (.committed ticket results (registry.commit ticket results).1 :: log) pending
        (registry.commit ticket results).2
  | remove {log : List Entry} {pending : List Ticket} {registry : Registry} (h : Interleaved log pending registry)
      (document : Text) :
      Interleaved (.closed document :: log) ((registry.remove document).1.toList ++ pending)
        (registry.remove document).2
  | cancel {log : List Entry} {pending : List Ticket} {registry : Registry} (h : Interleaved log pending registry)
      {ticket : Ticket} (mem : ticket ∈ pending) :
      Interleaved log (pending.erase ticket) (registry.cancel ticket)

structure Consistent (log : List Entry) (pending : List Ticket) (registry : Registry) : Prop where
  sessions : ∀ document, registry.session? document =
    (newest document log).map fun ticket => ⟨ticket.token, inFlight document log, shown document log⟩
  idle : ∀ document, newest document log = none → shown document log = []
  numbered : ∀ ticket, .began ticket ∈ log → ticket.number < registry.issued
  distinct : ∀ ticket other, .began ticket ∈ log → .began other ∈ log → ticket.number = other.number → ticket = other
  fresh : ∀ number ∈ registry.cancelled, number < registry.issued
  counted : ∀ ticket, .began ticket ∈ log → closedSince ticket log = false →
    ∃ last, newest ticket.document log = some last ∧ ticket.token ≤ last.token ∧
      (ticket.token = last.token → ticket = last)
  stale : ∀ ticket ∈ pending, .began ticket ∈ log ∧ closedSince ticket log = true
  uncancelled : ∀ document ticket, newest document log = some ticket → registry.isCancelled ticket = false

theorem isCancelled_cancelAny (registry : Registry) (flying : Option Ticket) (ticket : Ticket) :
    (registry.cancelAny flying).isCancelled ticket =
      (flying.any (·.number = ticket.number) || registry.isCancelled ticket) := by
  cases flying with
  | none => rfl
  | some other => simp [cancelAny, cancel, isCancelled, eq_comm]

theorem isCancelled_close (registry : Registry) (document : Text) (ticket : Ticket) :
    (registry.close document).isCancelled ticket =
      (registry.cancelAny ((registry.session? document).bind Session.ticket)).isCancelled ticket := by
  rw [isCancelled_cancelAny]
  exact isCancelled_cancelAny _ _ ticket

theorem begin_ticket (registry : Registry) (document : Text) :
    (registry.begin document).1 =
      ⟨document, ((registry.session? document).map Session.token).getD 0 + 1, registry.issued⟩ := by
  cases found : registry.session? document with
  | none => simp [begin, found, cancelAny]
  | some session => cases flying : session.ticket <;> simp [begin, found, flying, cancelAny, cancel]

theorem begin_document (registry : Registry) (document : Text) : (registry.begin document).1.document = document := by
  rw [begin_ticket]

theorem begin_number (registry : Registry) (document : Text) : (registry.begin document).1.number = registry.issued := by
  rw [begin_ticket]

theorem begin_issued (registry : Registry) (document : Text) :
    (registry.begin document).2.issued = registry.issued + 1 :=
  congrArg (· + 1) (begin_number registry document)

theorem begin_cancelled (registry : Registry) (document : Text) :
    (registry.begin document).2.cancelled =
      (registry.cancelAny ((registry.session? document).bind Session.ticket)).cancelled := by
  cases found : registry.session? document <;> simp [begin, found]

theorem isCancelled_begin (registry : Registry) (document : Text) (ticket : Ticket) :
    (registry.begin document).2.isCancelled ticket =
      (registry.cancelAny ((registry.session? document).bind Session.ticket)).isCancelled ticket := by
  rw [isCancelled, begin_cancelled]
  rfl

namespace Consistent

theorem flying (h : Consistent log pending registry) (document : Text) :
    (registry.session? document).bind Session.ticket = inFlight document log := by
  rw [h.sessions]
  cases found : newest document log with
  | none =>
    cases flight : inFlight document log with
    | none => rfl
    | some ticket => simp [newest_of_inFlight flight] at found
  | some ticket => rfl

theorem results (h : Consistent log pending registry) (document : Text) :
    registry.results document = shown document log := by
  rw [Registry.results, h.sessions]
  cases found : newest document log with
  | none => simp [h.idle document found]
  | some ticket => rfl

theorem empty : Consistent [] [] .empty := by
  constructor <;> simp [newest, shown, Registry.empty, session?]

section Begin

variable (h : Consistent log pending registry) (document : Text)
include h

theorem began_number (mem : .began ticket ∈ Entry.began (registry.begin document).1 :: log) :
    ticket = (registry.begin document).1 ∨
      .began ticket ∈ log ∧ ticket.number < (registry.begin document).1.number := by
  rcases List.mem_cons.1 mem with same | mem
  · exact .inl (Entry.began.inj same)
  · rw [begin_number]
    exact .inr ⟨mem, h.numbered ticket mem⟩

theorem closedSince_began (issued : .began ticket ∈ log) :
    closedSince ticket (.began (registry.begin document).1 :: log) = closedSince ticket log := by
  have differ : (registry.begin document).1 ≠ ticket := by
    intro same
    have number := h.numbered ticket issued
    rw [← same, begin_number] at number
    exact Nat.lt_irrefl _ number
  simp [closedSince, differ]

theorem begin_counted (mem : .began ticket ∈ Entry.began (registry.begin document).1 :: log)
    (since : closedSince ticket (.began (registry.begin document).1 :: log) = false) :
    ∃ last, newest ticket.document (.began (registry.begin document).1 :: log) = some last ∧
      ticket.token ≤ last.token ∧ (ticket.token = last.token → ticket = last) := by
  rw [newest, begin_document]
  rcases h.began_number document mem with rfl | ⟨issued, -⟩
  · exact ⟨_, if_pos (begin_document registry document).symm, Nat.le_refl _, fun _ => rfl⟩
  · rw [h.closedSince_began document issued] at since
    obtain ⟨last, found, le, unique⟩ := h.counted ticket issued since
    split
    · next same =>
      -- A new run of the same session has a token of its own, above those of all earlier ones.
      have token : (registry.begin document).1.token = last.token + 1 := by
        rw [begin_ticket, same, h.sessions, found]
        rfl
      exact ⟨_, rfl, by omega, fun equal => by omega⟩
    · exact ⟨last, found, le, unique⟩

theorem begin_uncancelled (found : newest other (.began (registry.begin document).1 :: log) = some last) :
    (registry.begin document).2.isCancelled last = false := by
  have number := begin_number registry document
  rw [newest, begin_document] at found
  -- What `begin` cancels is the run in flight of the same document, which is older than the new run and
  -- differs from the newest run of any other document.
  have apart : registry.isCancelled last = false ∧
      ∀ old, inFlight document log = some old → old.number ≠ last.number := by
    split at found
    · obtain rfl := Option.some.inj found
      refine ⟨?_, fun old flight => ?_⟩
      · rw [isCancelled, Bool.eq_false_iff, ne_eq, List.contains_iff_mem]
        exact fun mem => Nat.lt_irrefl _ (number ▸ h.fresh _ mem)
      · exact Nat.ne_of_lt (number ▸ h.numbered old (inFlight_spec flight).2.1)
    · next differ =>
      obtain ⟨there, issued, -⟩ := newest_spec found
      refine ⟨h.uncancelled other last found, fun old flight same => differ ?_⟩
      obtain ⟨same', issued', -⟩ := inFlight_spec flight
      rw [← same', ← there, h.distinct old last issued' issued same]
  rw [isCancelled_begin, h.flying, isCancelled_cancelAny, Bool.or_eq_false_iff]
  refine ⟨?_, apart.1⟩
  cases flight : inFlight document log with
  | none => rfl
  | some ticket => simp [apart.2 ticket flight]

theorem begin : Consistent (.began (registry.begin document).1 :: log) pending (registry.begin document).2 where
  sessions other := by
    rw [session?_begin, h.results, newest, inFlight, shown, begin_document]
    split
    · next same => simp [same]
    · exact h.sessions other
  idle other none := by
    rw [newest, begin_document] at none
    split at none
    · cases none
    · exact h.idle other none
  numbered ticket mem := by
    have number := begin_number registry document
    rw [begin_issued]
    rcases h.began_number document mem with rfl | ⟨-, less⟩ <;> omega
  distinct first second mem mem' same := by
    rcases h.began_number document mem with rfl | ⟨mem, less⟩ <;>
      rcases h.began_number document mem' with rfl | ⟨mem', less'⟩
    · rfl
    · omega
    · omega
    · exact h.distinct first second mem mem' same
  fresh number mem := by
    rw [begin_cancelled, h.flying] at mem
    rw [begin_issued]
    cases flight : inFlight document log with
    | none =>
      rw [flight] at mem
      exact Nat.lt_succ_of_lt (h.fresh number mem)
    | some old =>
      rw [flight] at mem
      rcases List.mem_cons.1 mem with rfl | mem
      · exact Nat.lt_succ_of_lt (h.numbered old (inFlight_spec flight).2.1)
      · exact Nat.lt_succ_of_lt (h.fresh number mem)
  counted ticket mem since := h.begin_counted document mem since
  stale ticket mem := by
    obtain ⟨issued, since⟩ := h.stale ticket mem
    exact ⟨List.mem_cons_of_mem _ issued, by rw [h.closedSince_began document issued, since]⟩
  uncancelled other last found := h.begin_uncancelled document found

end Begin

theorem isCurrent_iff (h : Consistent log pending registry) :
    registry.isCurrent ticket ↔ ∃ last, newest ticket.document log = some last ∧ last.token = ticket.token := by
  rw [isCurrent, h.sessions]
  cases newest ticket.document log <;> simp

theorem commit (h : Consistent log pending registry) (ticket : Ticket) (results : List LineResult) :
    Consistent (.committed ticket results (registry.commit ticket results).1 :: log) pending
      (registry.commit ticket results).2 where
  sessions other := by
    cases stored : (registry.commit ticket results).1 with
    | false =>
      rw [commit_refused stored]
      exact h.sessions other
    | true =>
      rw [session?_commit stored, newest, inFlight, shown]
      split
      · next here =>
        -- The committing run need not be the newest one, but it has the token of the newest.
        obtain ⟨last, found, token⟩ := h.isCurrent_iff.1 (commit_eq_true.1 stored).1
        rw [← here, found, Option.map_some, token]
      · exact h.sessions other
  idle other none := by
    cases stored : (registry.commit ticket results).1 with
    | false => exact h.idle other none
    | true =>
      rw [newest] at none
      rw [shown]
      split
      · next here =>
        obtain ⟨last, found, -⟩ := h.isCurrent_iff.1 (commit_eq_true.1 stored).1
        rw [here, none] at found
        cases found
      · exact h.idle other none
  numbered other mem := by
    rw [commit_issued]
    exact h.numbered other (by simpa using mem)
  distinct first second mem mem' := h.distinct first second (by simpa using mem) (by simpa using mem')
  fresh number mem := by
    rw [commit_cancelled] at mem
    rw [commit_issued]
    exact h.fresh number mem
  counted other mem since := h.counted other (by simpa using mem) since
  stale other mem := by
    obtain ⟨issued, since⟩ := h.stale other mem
    exact ⟨List.mem_cons_of_mem _ issued, since⟩
  uncancelled other last found := by
    rw [isCancelled, commit_cancelled]
    exact h.uncancelled other last found

theorem remove (h : Consistent log pending registry) (document : Text) :
    Consistent (.closed document :: log) ((registry.remove document).1.toList ++ pending)
      (registry.remove document).2 where
  sessions other := by
    rw [session?_remove, newest, inFlight, shown]
    split
    · rfl
    · exact h.sessions other
  idle other none := by
    rw [newest] at none
    rw [shown]
    split
    · rfl
    · next differ => exact h.idle other (by rwa [if_neg differ] at none)
  numbered other mem := h.numbered other (by simpa using mem)
  distinct first second mem mem' := h.distinct first second (by simpa using mem) (by simpa using mem')
  fresh := h.fresh
  counted other mem since := by
    simp only [closedSince, Bool.or_eq_false_iff, decide_eq_false_iff_not] at since
    rw [newest, if_neg since.1]
    exact h.counted other (by simpa using mem) since.2
  stale other mem := by
    rcases List.mem_append.1 mem with mem | mem
    · have flight : inFlight document log = some other := by
        rw [← h.flying]
        simpa [Registry.remove] using mem
      obtain ⟨same, issued, -⟩ := inFlight_spec flight
      exact ⟨List.mem_cons_of_mem _ issued, by simp [closedSince, same]⟩
    · obtain ⟨issued, since⟩ := h.stale other mem
      exact ⟨List.mem_cons_of_mem _ issued, by simp [closedSince, since]⟩
  uncancelled other last found := by
    rw [newest] at found
    split at found
    · cases found
    · exact h.uncancelled other last found

theorem cancel (h : Consistent log pending registry) (mem : ticket ∈ pending) :
    Consistent log (pending.erase ticket) (registry.cancel ticket) where
  sessions := h.sessions
  idle := h.idle
  numbered := h.numbered
  distinct := h.distinct
  fresh number mem' := by
    rcases List.mem_cons.1 mem' with rfl | mem'
    · exact h.numbered ticket (h.stale ticket mem).1
    · exact h.fresh number mem'
  counted := h.counted
  stale other mem' := h.stale other (List.mem_of_mem_erase mem')
  uncancelled document last found := by
    -- The second step of closing comes too late to hit a newest run: its own document was closed before.
    obtain ⟨issued, since⟩ := h.stale ticket mem
    obtain ⟨-, issued', since'⟩ := newest_spec found
    have differ : ticket.number ≠ last.number := by
      intro same
      rw [h.distinct ticket last issued issued' same, since'] at since
      cases since
    have cancelled : (registry.cancel ticket).isCancelled last = _ := isCancelled_cancelAny registry (some ticket) last
    rw [cancelled, h.uncancelled document last found]
    simp [differ]

end Consistent

theorem Interleaved.consistent (h : Interleaved log pending registry) : Consistent log pending registry := by
  induction h with
  | empty => exact .empty
  | begin _ document ih => exact ih.begin document
  | commit _ issued results ih => exact ih.commit _ results
  | remove _ document ih => exact ih.remove document
  | cancel _ mem ih => exact ih.cancel mem

/-- A ticket is current if it is the newest of an open document, or if the document was closed since and the newest
run of its new session has the same token; it may commit then, unless it has been cancelled. -/
theorem current_iff {log : List Entry} {pending : List Ticket} {registry : Registry}
    (h : Interleaved log pending registry) {ticket : Ticket} (issued : .began ticket ∈ log)
    (results : List LineResult) :
    (registry.isCurrent ticket = true ↔ newest ticket.document log = some ticket ∨
      closedSince ticket log = true ∧ ∃ last, newest ticket.document log = some last ∧ last.token = ticket.token) ∧
    ((registry.commit ticket results).1 = true ↔ newest ticket.document log = some ticket ∨
      closedSince ticket log = true ∧ registry.isCancelled ticket = false ∧
        ∃ last, newest ticket.document log = some last ∧ last.token = ticket.token) := by
  have fits := h.consistent
  have current : registry.isCurrent ticket = true ↔ newest ticket.document log = some ticket ∨
      closedSince ticket log = true ∧ ∃ last, newest ticket.document log = some last ∧ last.token = ticket.token := by
    rw [fits.isCurrent_iff]
    constructor
    · rintro ⟨last, found, token⟩
      cases since : closedSince ticket log with
      | true => exact .inr ⟨rfl, last, found, token⟩
      | false =>
        -- Within one session tokens are not reused.
        obtain ⟨other, found', -, unique⟩ := fits.counted ticket issued since
        rw [found] at found'
        obtain rfl := Option.some.inj found'
        exact .inl (by rw [found, unique token.symm])
    · rintro (found | ⟨-, last, found, token⟩)
      · exact ⟨ticket, found, rfl⟩
      · exact ⟨last, found, token⟩
  refine ⟨current, ?_⟩
  rw [commit_eq_true, current]
  constructor
  · rintro ⟨found | ⟨since, reused⟩, live⟩
    · exact .inl found
    · exact .inr ⟨since, live, reused⟩
  · rintro (found | ⟨since, live, reused⟩)
    · exact ⟨.inl found, fits.uncancelled _ ticket found⟩
    · exact ⟨.inr ⟨since, reused⟩, live⟩

theorem current_iff_sample :
    ((((Registry.empty.begin "a").2.remove "a").2.begin "a").2.isCurrent ⟨"a", 1, 0⟩ = true) ∧
      ((((Registry.empty.begin "a").2.remove "a").2.begin "a").2.commit ⟨"a", 1, 0⟩ []).1 = true := by
  obtain ⟨current, commits⟩ := current_iff (((Interleaved.empty.begin "a").remove "a").begin "a")
    (show Entry.began ⟨"a", 1, 0⟩ ∈ _ by decide) []
  exact ⟨current.2 (.inr ⟨by decide, ⟨"a", 1, 1⟩, by decide, rfl⟩),
    commits.2 (.inr ⟨by decide, by decide, ⟨"a", 1, 1⟩, by decide, rfl⟩)⟩

/-- A run that is not the newest of its document can be current, and store its results again. -/
theorem not_newest_of_reopened :
    ∃ log pending registry ticket, Interleaved log pending registry ∧ .began ticket ∈ log ∧
      newest ticket.document log ≠ some ticket ∧ registry.isCurrent ticket = true ∧
      (registry.commit ticket []).1 = true := by
  have committed := (Interleaved.empty.begin "a").commit (List.mem_singleton.2 rfl) []
  exact ⟨_, _, _, ⟨"a", 1, 0⟩, (committed.remove "a").begin "a", by decide⟩

/-! ## Histories -/

/-- The registry after a log of operations, where documents are closed at once and no run asks twice to store its
results. -/
inductive History : List Entry → Registry → Prop where
  | empty : History [] .empty
  | begin {log : List Entry} {registry : Registry} (h : History log registry) (document : Text) :
      History (.began (registry.begin document).1 :: log) (registry.begin document).2
  | commit {log : List Entry} {registry : Registry} (h : History log registry) {ticket : Ticket}
      (issued : .began ticket ∈ log) (once : ∀ results answer, .committed ticket results answer ∉ log)
      (results : List LineResult) :
      History (.committed ticket results (registry.commit ticket results).1 :: log) (registry.commit ticket results).2
  | close {log : List Entry} {registry : Registry} (h : History log registry) (document : Text) :
      History (.closed document :: log) (registry.close document)

theorem History.interleaved (h : History log registry) : Interleaved log [] registry := by
  induction h with
  | empty => exact .empty
  | begin _ document ih => exact ih.begin document
  | commit _ issued _ results ih => exact ih.commit issued results
  | @close log registry _ document ih =>
    have removed := ih.remove document
    rw [Registry.close]
    cases flight : (registry.remove document).1 with
    | none => simpa [flight, cancelAny] using removed
    | some ticket =>
      rw [flight] at removed
      simpa [flight, cancelAny] using removed.cancel (List.mem_append_left _ (List.mem_singleton.2 rfl))

structure Settled (log : List Entry) (registry : Registry) : Prop where
  superseded : ∀ ticket, .began ticket ∈ log → newest ticket.document log = some ticket ∨
    registry.isCancelled ticket = true ∨ ∃ results answer, .committed ticket results answer ∈ log
  landed : ∀ document ticket, newest document log = some ticket → inFlight document log = none →
    ∃ results answer, .committed ticket results answer ∈ log

namespace Settled

theorem committed_cons (entry : Entry) (h : ∃ results answer, .committed ticket results answer ∈ log) :
    ∃ results answer, .committed ticket results answer ∈ entry :: log := by
  obtain ⟨results, answer, committed⟩ := h
  exact ⟨results, answer, List.mem_cons_of_mem _ committed⟩

theorem retired (h : Settled log registry) (issued : .began ticket ∈ log) (document : Text) :
    (if document = ticket.document then other else newest ticket.document log) = some ticket ∨
      (registry.cancelAny (inFlight document log)).isCancelled ticket ∨
      ∃ results answer, .committed ticket results answer ∈ entry :: log := by
  rw [isCancelled_cancelAny]
  rcases h.superseded ticket issued with found | cancelled | committed
  · by_cases here : document = ticket.document
    · -- The newest run is the one in flight, unless it has landed.
      subst here
      cases flight : inFlight ticket.document log with
      | none => exact .inr (.inr (committed_cons _ (h.landed _ ticket found flight)))
      | some other =>
        rw [newest_of_inFlight flight] at found
        obtain rfl := Option.some.inj found
        exact .inr (.inl (by simp))
    · exact .inl ((if_neg here).trans found)
  · exact .inr (.inl (by simp [cancelled]))
  · exact .inr (.inr (committed_cons _ committed))

theorem newest_of_commit (h : Settled log registry) (issued : .began ticket ∈ log)
    (once : ∀ results answer, .committed ticket results answer ∉ log) {results : List LineResult}
    (stored : (registry.commit ticket results).1) : newest ticket.document log = some ticket := by
  rcases h.superseded ticket issued with found | cancelled | ⟨results, answer, committed⟩
  · exact found
  · rw [(commit_eq_true.1 stored).2] at cancelled
    cases cancelled
  · exact absurd committed (once results answer)

theorem begin (fits : Consistent log [] registry) (h : Settled log registry) (document : Text) :
    Settled (.began (registry.begin document).1 :: log) (registry.begin document).2 where
  superseded ticket mem := by
    rw [newest, begin_document, isCancelled_begin, fits.flying]
    rcases List.mem_cons.1 mem with same | issued
    · obtain rfl := Entry.began.inj same
      exact .inl (if_pos (begin_document registry document).symm)
    · exact h.retired issued document
  landed other ticket found flight := by
    rw [newest] at found
    rw [inFlight] at flight
    split at flight
    · cases flight
    · next differ =>
      rw [if_neg differ] at found
      exact committed_cons _ (h.landed other ticket found flight)

theorem commit (h : Settled log registry) (issued : .began ticket ∈ log)
    (once : ∀ results answer, .committed ticket results answer ∉ log) (results : List LineResult) :
    Settled (.committed ticket results (registry.commit ticket results).1 :: log)
      (registry.commit ticket results).2 where
  superseded other mem := by
    rw [newest, isCancelled, commit_cancelled]
    exact (h.superseded other (by simpa using mem)).imp_right (Or.imp_right (committed_cons _))
  landed document last found flight := by
    have later (flight : inFlight document log = none) : ∃ stored answer, Entry.committed last stored answer ∈
        Entry.committed ticket results (registry.commit ticket results).1 :: log :=
      committed_cons _ (h.landed document last found flight)
    cases stored : (registry.commit ticket results).1 with
    | false =>
      rw [stored, inFlight] at flight
      rw [stored] at later
      exact later flight
    | true =>
      rw [stored, inFlight] at flight
      rw [stored] at later
      split at flight
      · next here =>
        have same := h.newest_of_commit issued once stored
        rw [here, show newest document log = some last from found] at same
        obtain rfl := Option.some.inj same
        exact ⟨results, true, List.mem_cons_self⟩
      · exact later flight

theorem close (fits : Consistent log [] registry) (h : Settled log registry) (document : Text) :
    Settled (.closed document :: log) (registry.close document) where
  superseded ticket mem := by
    rw [newest]
    have cancelled : (registry.close document).isCancelled ticket =
        (registry.cancelAny (inFlight document log)).isCancelled ticket := by
      rw [← fits.flying, Registry.close, Registry.remove]
      cases (registry.session? document).bind Session.ticket <;> rfl
    rw [cancelled]
    exact h.retired (by simpa using mem) document
  landed other ticket found flight := by
    rw [newest] at found
    rw [inFlight] at flight
    split at found
    · cases found
    · next differ =>
      rw [if_neg differ] at flight
      exact committed_cons _ (h.landed other ticket found flight)

end Settled

theorem History.settled (h : History log registry) : Settled log registry := by
  induction h with
  | empty => exact ⟨by simp, by simp [newest]⟩
  | begin earlier document ih => exact ih.begin earlier.interleaved.consistent document
  | commit _ issued once results ih => exact ih.commit issued once results
  | close earlier document ih => exact ih.close earlier.interleaved.consistent document

def reopenedLog : List Entry :=
  [.began ⟨"a", 1, 2⟩, .began ⟨"b", 1, 1⟩, .closed "a", .committed ⟨"a", 1, 0⟩ [⟨0, "x", false⟩] true,
    .began ⟨"a", 1, 0⟩]

def reopened : Registry :=
  ⟨[("b", ⟨1, some ⟨"b", 1, 1⟩, []⟩), ("a", ⟨1, some ⟨"a", 1, 2⟩, []⟩)], 3, []⟩

theorem history_reopened : History reopenedLog reopened := by
  have committed := (History.empty.begin "a").commit (List.mem_singleton.2 rfl) (by simp) [⟨0, "x", false⟩]
  exact ((committed.close "a").begin "b").begin "a"

/-- Exactly the newest run of an open document may commit, and the results of a document are those that were stored
last. -/
theorem commit_iff_newest {log : List Entry} {registry : Registry} (h : History log registry) :
    (∀ ticket results, .began ticket ∈ log → (∀ stored answer, .committed ticket stored answer ∉ log) →
      ((registry.commit ticket results).1 = true ↔ newest ticket.document log = some ticket)) ∧
    ∀ document, registry.results document = shown document log := by
  have fits := h.interleaved.consistent
  refine ⟨fun ticket results issued once => ?_, fits.results⟩
  constructor
  · exact h.settled.newest_of_commit issued once
  · intro found
    exact commit_eq_true.2 ⟨fits.isCurrent_iff.2 ⟨ticket, found, rfl⟩, fits.uncancelled _ ticket found⟩

theorem commit_iff_newest_sample :
    ((reopened.begin "a").2.commit ⟨"a", 2, 3⟩ []).1 = true ∧ ((reopened.begin "a").2.commit ⟨"a", 1, 2⟩ []).1 = false ∧
      (reopened.begin "a").2.results "a" = [] := by
  obtain ⟨commits, stored⟩ := commit_iff_newest (history_reopened.begin "a")
  refine ⟨(commits ⟨"a", 2, 3⟩ [] (by decide) (by simp [reopenedLog])).2 (by decide), ?_, stored "a"⟩
  rw [Bool.eq_false_iff, ne_eq, commits ⟨"a", 1, 2⟩ [] (by decide) (by simp [reopenedLog])]
  decide

end LineProbe.Registry
