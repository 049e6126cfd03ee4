import LineProbe.Proofs.Assembly
import LineProbe.Proofs.Cancellation
import LineProbe.Proofs.DigitLimit

/-!
# How runs end

A run ends in one of four ways: its process exits, its deadline comes while it reads or while it waits, or its owner
cancels it.
-/

namespace LineProbe

/-! ## Guards in error output -/

namespace ErrorOutput

end ErrorOutput

open Run (StopCause Stopped PumpEnd)

variable {events : List Event} {collector : Collector}

namespace Run

variable (host : Host σ)

end Run

/-! ## What a run leaves behind -/

section

variable (host : Host σ)

end

end LineProbe
