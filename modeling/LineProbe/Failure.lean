import LineProbe.Config.Error
import LineProbe.Run.Execute

/-!
# Failures of commands

Everything that can end a command early.
-/

namespace LineProbe

inductive Failure where
  | config (cause : ConfigError)
  | encoding (cause : Utf8.Error)
  | digits (cause : DigitLimitError)
  | instrument (cause : Instrument.InstrumentError)
  | run (cause : RunError)
  | unreadable (path : Text) (cause : SystemError)
  | unwritable (cause : SystemError)
  | unknownColor (name : Text)
deriving Repr

namespace Failure

def message : Failure → Text
  | .config cause => cause.message
  | .encoding cause => cause.message
  | .digits cause => cause.message
  | .instrument cause => cause.message
  | .run cause => cause.message
  | .unreadable path cause => "could not read " ++ path ++ ": " ++ cause.message
  | .unwritable cause => cause.message
  | .unknownColor name => "Unknown color " ++ Text.quoted name

def isFinding : Failure → Bool
  | .config cause => cause.isFinding
  | .run (.violation _) | .run (.spawn ..) | .unreadable .. => true
  | _ => false

end Failure

end LineProbe
