import LineProbe.Result.Basic

/-!
# Document sessions

Which run of a document may show its results.
-/

namespace LineProbe

/-- A run of a document. Tokens count the runs of a session, and `number` counts all tickets. -/
structure Ticket where
  document : Text
  token : Nat
  number : Nat
deriving DecidableEq, Repr

def Ticket.same (a b : Ticket) : Bool :=
  a.document = b.document && a.token = b.token

structure Session where
  token : Nat
  ticket : Option Ticket
  results : List LineResult
deriving DecidableEq, Repr

/-- The open documents, and the tickets that have been cancelled. -/
structure Registry where
  sessions : List (Text × Session)
  issued : Nat
  cancelled : List Nat
deriving DecidableEq, Repr

namespace Registry

def empty : Registry :=
  ⟨[], 0, []⟩

def session? (registry : Registry) (document : Text) : Option Session :=
  (registry.sessions.find? (·.1 = document)).map Prod.snd

def contains (registry : Registry) (document : Text) : Bool :=
  (registry.session? document).isSome

def setSession (document : Text) (session : Session) : List (Text × Session) → List (Text × Session)
  | [] => [(document, session)]
  | entry :: entries =>
    if entry.1 = document then (document, session) :: entries
    else entry :: setSession document session entries

def isCancelled (registry : Registry) (ticket : Ticket) : Bool :=
  registry.cancelled.contains ticket.number

def cancel (registry : Registry) (ticket : Ticket) : Registry :=
  { registry with cancelled := ticket.number :: registry.cancelled }

def cancelAny (registry : Registry) : Option Ticket → Registry
  | none => registry
  | some ticket => registry.cancel ticket

def begin (registry : Registry) (document : Text) : Ticket × Registry :=
  let session := (registry.session? document).getD ⟨0, none, []⟩
  let registry := registry.cancelAny session.ticket
  let ticket : Ticket := ⟨document, session.token + 1, registry.issued⟩
  let session := { session with token := ticket.token, ticket := some ticket }
  (ticket, { registry with
    sessions := setSession document session registry.sessions
    issued := registry.issued + 1 })

/-- Whether a ticket has the token of the latest run of its document. -/
def isCurrent (registry : Registry) (ticket : Ticket) : Bool :=
  (registry.session? ticket.document).any (·.token = ticket.token)

/-- Stores the results of a run, if it is the latest one of its document and not cancelled. The answer
is whether they were stored. -/
def commit (registry : Registry) (ticket : Ticket) (results : List LineResult) : Bool × Registry :=
  match registry.session? ticket.document with
  | none => (false, registry)
  | some session =>
    if session.token = ticket.token && !registry.isCancelled ticket then
      let session := { session with results, ticket := none }
      (true, { registry with sessions := setSession ticket.document session registry.sessions })
    else (false, registry)

def results (registry : Registry) (document : Text) : List LineResult :=
  ((registry.session? document).map Session.results).getD []

def remove (registry : Registry) (document : Text) : Option Ticket × Registry :=
  ((registry.session? document).bind Session.ticket,
    { registry with sessions := registry.sessions.filter (·.1 ≠ document) })

def close (registry : Registry) (document : Text) : Registry :=
  let (ticket, registry) := registry.remove document
  registry.cancelAny ticket

end Registry

end LineProbe
