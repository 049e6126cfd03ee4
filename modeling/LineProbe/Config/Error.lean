import LineProbe.Value.Integer

/-!
# Configuration errors

What can be wrong with a configuration value, and the message for it.
-/

namespace LineProbe

inductive ConfigError where
  | notInteger (key : Text) (value : Value)
  | infinite
  | tooSmall (key : Text) (minimum value : Int)
  | notText (key : Text) (value : Value)
  | unknownMode (value : Value)
  | unwritable
deriving Repr

namespace ConfigError

/-- Whether an error is a finding about the configuration. An infinity is refused before the
configuration is looked at, and a finding without a message is none. -/
def isFinding : ConfigError → Bool
  | .infinite | .unwritable => false
  | _ => true

def integers : ConfigError → List Int
  | .notInteger _ value | .notText _ value | .unknownMode value => value.integers
  | .tooSmall _ _ value => [value]
  | .infinite | .unwritable => []

def orUnwritable (error : ConfigError) : ConfigError :=
  if error.integers.all fun n => (Text.writeInteger n).isOk then error else .unwritable

def message : ConfigError → Text
  | .notInteger key value => key ++ " must be an integer, got " ++ value.shown
  | .infinite => CoercionError.message .infinite
  | .tooSmall key minimum value =>
    key ++ " must be >= " ++ Text.ofInt minimum ++ ", got " ++ Text.ofInt value
  | .notText key value => key ++ " must be a non-empty string, got " ++ value.shown
  | .unknownMode value => "indent_mode must be 'spaces' or 'tabs', got " ++ value.shown
  | .unwritable => DigitLimitError.message .writing

end ConfigError

def integerSetting (key : Text) (value : Value) (minimum : Int) : Except ConfigError Int :=
  match value with
  | .bool _ => .error (.notInteger key value)
  | _ =>
    match value.toInteger with
    | .ok n => if n < minimum then .error (ConfigError.tooSmall key minimum n).orUnwritable else .ok n
    | .error .infinite => .error .infinite
    | .error _ => .error (ConfigError.notInteger key value).orUnwritable

def textSetting (key : Text) (value : Value) : Except ConfigError Text :=
  match value with
  | .str text => if Text.trim text = [] then .error (.notText key value) else .ok (Text.trim text)
  | _ => .error (ConfigError.notText key value).orUnwritable

end LineProbe
