import LineProbe.Number.Integer
import LineProbe.Probe
import LineProbe.Safety.Call

/-!
# Directives

A comment behind a statement may hold the directives `mock(…)` and `limit(…)`, in any order and with or without white
space before the parenthesis.
-/

namespace LineProbe

structure Directives where
  mock : Option Text
  limit : Option Int
deriving DecidableEq, Repr

namespace Directives

def none : Directives :=
  ⟨.none, .none⟩

/-- The limit to use, where `default` stands in for a missing one. -/
def effectiveLimit (directives : Directives) (default : Int) : Int :=
  directives.limit.getD default

def limitOf? (argument : Text) : Option Int :=
  match Text.readInteger argument with
  | .ok value => if 0 < value then some value else .none
  | .error _ => .none

def add (directives : Directives) (name argument : Text) : Directives :=
  if name = "mock" then { directives with mock := some argument }
  else { directives with limit := (limitOf? argument).or directives.limit }

def collect (comment : Text) (directives : Directives) (position : Nat) :
    List NamedCall → Directives
  | [] => directives
  | call :: calls =>
    if call.start < position then collect comment directives position calls
    else
      match matchingBracket? comment call.openParen with
      | .none => directives
      | some close =>
        let argument := Text.trim (Text.slice comment (call.openParen + 1) close)
        collect comment (directives.add call.name argument) (close + 1) calls

def ofComment (comment : Text) : Directives :=
  collect comment none 0 (namedCalls ["mock", "limit"] Text.isWordChar comment)

end Directives

end LineProbe
