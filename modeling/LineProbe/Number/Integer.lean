import LineProbe.Text.Basic

/-!
# Reading integers

An integer is written with an optional sign and decimal digits of any script, with single underscores between digits
and white space around the whole.
-/

namespace LineProbe

def digitLimit : Nat := 4300

inductive IntegerError where
  | malformed
  | tooLong (digits : Nat)
deriving DecidableEq, Repr

inductive DigitLimitError where
  | reading (digits : Nat)
  | writing
deriving DecidableEq, Repr

def DigitLimitError.message (error : DigitLimitError) : Text :=
  let details : Text :=
    match error with
    | .reading digits => ": value has " ++ Text.ofNat digits ++ " digits"
    | .writing => []
  "Exceeds the limit (" ++ Text.ofNat digitLimit ++ " digits) for integer string conversion" ++
    details ++ "; use sys.set_int_max_str_digits() to increase the limit"

namespace Text

def isIntegerBlank (c : Char) : Bool :=
  isBlankChar c && !(0x1c ≤ c.toNat && c.toNat ≤ 0x1f)

def digitsValue (digits : Text) : Nat :=
  digits.foldl (fun value c => 10 * value + (digitValue? c).getD 0) 0

def digitRun? : Text → Option (Text × Text)
  | '_' :: c :: rest =>
    if isDigitChar c then (digitRun? rest).map fun run => (c :: run.1, run.2) else none
  | c :: rest =>
    if isDigitChar c then (digitRun? rest).map fun run => (c :: run.1, run.2)
    else if c = '_' then none
    else some ([], c :: rest)
  | [] => some ([], [])

def readSigned (negative : Bool) (text : Text) : Except IntegerError Int :=
  if text.head?.any isDigitChar then
    match digitRun? text with
    | none => .error .malformed
    | some (digits, rest) =>
      if digitLimit < digits.length then .error (.tooLong digits.length)
      else if rest.all isIntegerBlank then
        let value : Int := digitsValue digits
        .ok (if negative then -value else value)
      else .error .malformed
  else .error .malformed

def readInteger (text : Text) : Except IntegerError Int :=
  match text.dropWhile isIntegerBlank with
  | '-' :: rest => readSigned true rest
  | '+' :: rest => readSigned false rest
  | rest => readSigned false rest

def readDigits (digits : Text) : Except DigitLimitError Nat :=
  if digitLimit < digits.length then .error (.reading digits.length) else .ok (digitsValue digits)

def writeInteger (n : Int) : Except DigitLimitError Text :=
  if digitLimit < (ofNat n.natAbs).length then .error .writing else .ok (ofInt n)

end Text

end LineProbe
