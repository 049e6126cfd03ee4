import LineProbe.Number.Integer
import LineProbe.Value.Basic

/-!
# Values as integers

Integers stand for themselves, truth values for one and zero, and floating-point numbers for their integer part; texts
are read.
-/

namespace LineProbe

def IntegerError.message (text : Text) : IntegerError → Text
  | .malformed => "invalid literal for int() with base 10: " ++ (Text.quoted text).take 200
  | .tooLong digits => DigitLimitError.message (.reading digits)

inductive CoercionError where
  | unreadable (text : Text) (cause : IntegerError)
  | notNumeric (kind : Text)
  | notANumber
  | infinite
deriving DecidableEq, Repr

def CoercionError.message : CoercionError → Text
  | .unreadable text cause => cause.message text
  | .notNumeric kind =>
    "int() argument must be a string, a bytes-like object or a real number, not '" ++ kind ++ "'"
  | .notANumber => "cannot convert float NaN to integer"
  | .infinite => "cannot convert float infinity to integer"

def Value.toInteger : Value → Except CoercionError Int
  | .int n => .ok n
  | .bool b => .ok (if b then 1 else 0)
  | .float .nan => .error .notANumber
  | .float (.infinite _) => .error .infinite
  | .float x => .ok (x.truncate?.getD 0)
  | .str text =>
    match Text.readInteger text with
    | .ok n => .ok n
    | .error cause => .error (.unreadable text cause)
  | value => .error (.notNumeric value.kindName)

end LineProbe
