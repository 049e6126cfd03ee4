import LineProbe.Value.Basic

/-!
# Broken invariants

What is reported when something happens that callers promise not to do.
-/

namespace LineProbe

structure Violation where
  reason : Text
  values : List (Text × Value)
deriving Repr

def Violation.message (violation : Violation) : Text :=
  if violation.reason = [] then "never() marker reached" else violation.reason

end LineProbe
