import LineProbe.Invariant
import LineProbe.Number.Integer

/-!
# Requests

Reading the request for a run from a payload.
-/

namespace LineProbe

/-! ## Integers as text -/

namespace Lenient

def afterZeros (last : Char) : Text → Option Text
  | [] => some [last]
  | c :: rest =>
    if c = '0' || c = '_' then afterZeros c rest
    else if c = '.' then some (last :: c :: rest)
    else if c.isDigit || c = '-' then some (c :: rest)
    else none

def withoutLead (text : Text) : Option Text :=
  let text := if text.head? = some '+' then text.drop 1 else text
  match text with
  | '0' :: rest => afterZeros '0' rest
  | c :: rest => if c.isDigit || c = '-' then some (c :: rest) else none
  | [] => none

def withoutFraction (text : Text) : Text :=
  let whole := text.takeWhile (· ≠ '.')
  let fraction := text.drop (whole.length + 1)
  if fraction ≠ [] && fraction.all (· = '0') then whole else text

def digits? (text : Text) : Option Nat :=
  let groups := Text.splitAtChar '_' text
  if groups.all fun group => group ≠ [] && group.all Char.isDigit then
    some (Text.digitsValue groups.flatten)
  else none

def plain? : Text → Option Int
  | '-' :: digits => (digits? digits).map fun value => -(value : Int)
  | digits => (digits? digits).map Int.ofNat

def trimmed (text : Text) : Text :=
  ((text.dropWhile Text.isIntegerBlank).reverse.dropWhile Text.isIntegerBlank).reverse

def integer? (text : Text) : Option Int := do
  let text := trimmed text
  if text.take 2 = ['+', '-'] then none
  else plain? (withoutFraction (← withoutLead text))

end Lenient

/-! ## Faults -/

inductive FieldFault where
  | missing
  | notText
  | notInteger
  | unreadableInteger
  | oversizedInteger
  | fractional
  | notFinite
  | notTable
deriving DecidableEq, Repr

def FieldFault.name : FieldFault → Text
  | .missing => "missing"
  | .notText => "string_type"
  | .notInteger => "int_type"
  | .unreadableInteger => "int_parsing"
  | .oversizedInteger => "int_parsing_size"
  | .fractional => "int_from_float"
  | .notFinite => "finite_number"
  | .notTable => "model_type"

def FieldFault.message : FieldFault → Text
  | .missing => "Field required"
  | .notText => "Input should be a valid string"
  | .notInteger => "Input should be a valid integer"
  | .unreadableInteger =>
    "Input should be a valid integer, unable to parse string as an integer"
  | .oversizedInteger => "Unable to parse input string as an integer, exceeded maximum size"
  | .fractional => "Input should be a valid integer, got a number with a fractional part"
  | .notFinite => "Input should be a finite number"
  | .notTable => "Input should be a valid dictionary or instance of RunRequest"

structure FieldError where
  field : Option Text
  fault : FieldFault
  input : Value
deriving Repr

/-! ## Fields -/

def textInput : Value → Except FieldFault Text
  | .str text => .ok text
  | _ => .error .notText

def integerBound : Nat := Nat.pow 2 63

def integerInput : Value → Except FieldFault Int
  | .int n => .ok n
  | .bool b => .ok (if b then 1 else 0)
  | .float x =>
    match x.truncate? with
    | none => .error .notFinite
    | some n => if x.isWhole && n.natAbs < integerBound then .ok n else .error .fractional
  | .str text =>
    if digitLimit < (String.ofList text).utf8ByteSize then .error .oversizedInteger
    else
      match Lenient.integer? text with
      | some n => .ok n
      | none => .error .unreadableInteger
  | _ => .error .notInteger

def optionalInput {α : Type} (read : Value → Except FieldFault α) (payload : Value) (field : Text) :
    Except (List FieldError) (Option α) :=
  match payload.get? field with
  | none | some .null => .ok none
  | some value => ((read value).map some).mapError fun fault => [⟨some field, fault, value⟩]

def requiredText (payload : Value) (field : Text) : Except (List FieldError) Text :=
  match payload.get? field with
  | none => .error [⟨some field, .missing, payload⟩]
  | some value => (textInput value).mapError fun fault => [⟨some field, fault, value⟩]

/-! ## Requests -/

structure RunRequest where
  text : Text
  indentWidth : Option Int
  indentMode : Option Text
  timeout : Option Int
  callLimit : Option Int
deriving DecidableEq, Repr

def errorsOf {α : Type} : Except (List FieldError) α → List FieldError
  | .ok _ => []
  | .error errors => errors

def RunRequest.ofPayload (payload : Value) : Except (List FieldError) RunRequest :=
  match payload with
  | .table _ =>
    let text := requiredText payload "text"
    let indentWidth := optionalInput integerInput payload "indent_width"
    let indentMode := optionalInput textInput payload "indent_mode"
    let timeout := optionalInput integerInput payload "timeout_ms"
    let callLimit := optionalInput integerInput payload "call_limit"
    let request := do
      return RunRequest.mk (← text) (← indentWidth) (← indentMode) (← timeout) (← callLimit)
    request.mapError fun _ => errorsOf text ++ errorsOf indentWidth ++ errorsOf indentMode ++
      errorsOf timeout ++ errorsOf callLimit
  | _ => .error [⟨none, .notTable, payload⟩]

/-! ## The report on a payload -/

def shownBytes : Nat := 50

def takeBytes : Nat → Text → Text
  | _, [] => []
  | bytes, c :: rest => if c.utf8Size ≤ bytes then c :: takeBytes (bytes - c.utf8Size) rest else []

def abridged (text : Text) : Text :=
  if (String.ofList text).utf8ByteSize ≤ shownBytes then text
  else
    let half := shownBytes / 2
    takeBytes half text ++ "..." ++ (takeBytes (half - 1) text.reverse).reverse

def FieldError.report (error : FieldError) : Text :=
  (match error.field with
    | some field => "\n".toList ++ field
    | none => []) ++
    "\n  " ++ error.fault.message ++ " [type=" ++ error.fault.name ++ ", input_value=" ++
    abridged error.input.shown ++ ", input_type=" ++ error.input.kindName ++ "]"

def requestReport (errors : List FieldError) : Text :=
  Text.ofNat errors.length ++ (if errors.length = 1 then " validation error" else " validation errors") ++
    " for RunRequest" ++ errors.flatMap FieldError.report

/-! ## The payload of a command -/

def requirePayload (command : Text) (payload : Value) : Except Violation Value :=
  match payload with
  | .null => .error ⟨"missing command payload", [("command", .str command)]⟩
  | .table _ => .ok payload
  | _ => .error ⟨"invalid command payload type",
      [("command", .str command), ("payload_type", .str payload.kindName)]⟩

end LineProbe
