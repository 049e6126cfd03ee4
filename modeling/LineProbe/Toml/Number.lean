import LineProbe.Toml.Basic

/-!
# TOML: numbers, dates and times

Each reader gives nothing if the text does not begin with what it reads.
-/

namespace LineProbe.Toml

/-! ## Digits -/

def moreDigits (isDigit : Char → Bool) : Text → Text × Text
  | '_' :: c :: rest =>
    if isDigit c then
      let (digits, rest) := moreDigits isDigit rest
      (c :: digits, rest)
    else ([], '_' :: c :: rest)
  | c :: rest =>
    if isDigit c then
      let (digits, rest) := moreDigits isDigit rest
      (c :: digits, rest)
    else ([], c :: rest)
  | [] => ([], [])

def digitsAt? (isDigit : Char → Bool) : Text → Option (Text × Text)
  | c :: rest =>
    if isDigit c then
      let (digits, rest) := moreDigits isDigit rest
      some (c :: digits, rest)
    else none
  | [] => none

def valueInBase (base : Nat) (digits : Text) : Nat :=
  digits.foldl (fun value c => base * value + (Text.hexValue? c).getD 0) 0

def isDigitOf (base : Nat) (c : Char) : Bool :=
  (Text.hexValue? c).any (· < base)

def baseNumber? (base : Nat) (text : Text) : Option (Nat × Text) :=
  (digitsAt? (isDigitOf base) text).map fun (digits, rest) => (valueInBase base digits, rest)

/-! ## Numbers -/

def marked? : Text → Option (Nat × Text)
  | '0' :: 'x' :: rest => baseNumber? 16 rest
  | '0' :: 'b' :: rest => baseNumber? 2 rest
  | '0' :: 'o' :: rest => baseNumber? 8 rest
  | _ => none

def readSign : Text → Bool × Text
  | '-' :: rest => (true, rest)
  | '+' :: rest => (false, rest)
  | text => (false, text)

def wholeDigits? : Text → Option (Text × Text)
  | '0' :: rest => some (['0'], rest)
  | text => digitsAt? Char.isDigit text

def fraction? : Text → Option (Text × Text)
  | '.' :: rest => digitsAt? Char.isDigit rest
  | _ => none

def exponent? : Text → Option (Int × Text)
  | c :: rest =>
    if c = 'e' || c = 'E' then
      let (negative, rest) := readSign rest
      (digitsAt? Char.isDigit rest).map fun (digits, rest) =>
        let value : Int := valueInBase 10 digits
        (if negative then -value else value, rest)
    else none
  | [] => none

def decimal? (text : Text) : Option (Except ReadError (Value × Text)) :=
  let (negative, rest) := readSign text
  (wholeDigits? rest).map fun (whole, rest) =>
    let (fraction, behind) := (fraction? rest).getD ([], rest)
    let (exponent, behind) := (exponent? behind).getD (0, behind)
    if behind.length = rest.length then do
      let value ← (Text.readDigits whole).mapError .digits
      return (.int (if negative then -value else value), rest)
    else
      let digits := valueInBase 10 (whole ++ fraction)
      .ok (.float (.ofDecimal negative digits (exponent - fraction.length)), behind)

def number? (text : Text) : Option (Except ReadError (Value × Text)) :=
  match marked? text with
  | some (value, rest) => some (.ok (.int value, rest))
  | none => decimal? text

def special? (text : Text) : Option (Value × Text) :=
  let (negative, rest) := readSign text
  if Text.startsWith rest "inf" then some (.float (.infinite negative), rest.drop 3)
  else if Text.startsWith rest "nan" then some (.float .nan, rest.drop 3)
  else none

/-! ## Dates and times -/

def twoDigits? (low high : Nat) : Text → Option (Nat × Text)
  | a :: b :: rest =>
    let value := valueInBase 10 [a, b]
    if a.isDigit && b.isDigit && low ≤ value && value ≤ high then some (value, rest) else none
  | _ => none

def after? (c : Char) : Text → Option Text
  | d :: rest => if c = d then some rest else none
  | [] => none

def microseconds (text : Text) : Nat × Text :=
  let digits := (text.drop 1).takeWhile Char.isDigit
  if text.head? = some '.' && digits ≠ [] then
    (valueInBase 10 ((digits ++ List.replicate 6 '0').take 6), text.drop (digits.length + 1))
  else (0, text)

def time? (text : Text) : Option (TimeOfDay × Text) := do
  let (hour, rest) ← twoDigits? 0 23 text
  let (minute, rest) ← twoDigits? 0 59 (← after? ':' rest)
  let (second, rest) ← twoDigits? 0 59 (← after? ':' rest)
  let (micros, rest) := microseconds rest
  return (⟨hour, minute, second, micros⟩, rest)

def date? (text : Text) : Option (Date × Text) := do
  let year := text.take 4
  if year.length = 4 && year.all Char.isDigit then
    let (month, rest) ← twoDigits? 1 12 (← after? '-' (text.drop 4))
    let (day, rest) ← twoDigits? 1 31 (← after? '-' rest)
    return (⟨valueInBase 10 year, month, day⟩, rest)
  else none

def isLeapYear (year : Nat) : Bool :=
  year % 4 = 0 && (year % 100 ≠ 0 || year % 400 = 0)

def daysInMonth (year month : Nat) : Nat :=
  if month = 2 then if isLeapYear year then 29 else 28
  else if month = 4 || month = 6 || month = 9 || month = 11 then 30
  else 31

def isCalendarDate (day : Date) : Bool :=
  1 ≤ day.year && day.day ≤ daysInMonth day.year day.month

def offset? : Text → Option (Int × Text)
  | c :: rest =>
    if c = 'Z' || c = 'z' then some (0, rest)
    else if c = '+' || c = '-' then do
      let (hour, rest) ← twoDigits? 0 23 rest
      let (minute, rest) ← twoDigits? 0 59 (← after? ':' rest)
      let minutes : Int := 60 * hour + minute
      return (if c = '-' then -minutes else minutes, rest)
    else none
  | [] => none

def timeOfMoment? : Text → Option ((TimeOfDay × Option Int) × Text)
  | c :: rest =>
    if c = 'T' || c = 't' || c = ' ' then
      (time? rest).map fun (clock, rest) =>
        match offset? rest with
        | some (offset, rest) => ((clock, some offset), rest)
        | none => ((clock, none), rest)
    else none
  | [] => none

def calendar? (text : Text) : Option (Except ReadError (Value × Text)) :=
  match date? text with
  | some (day, rest) =>
    if isCalendarDate day then
      match timeOfMoment? rest with
      | some ((clock, offset), rest) => some (.ok (.moment day clock offset, rest))
      | none => some (.ok (.date day, rest))
    else some (.error .malformed)
  | none => (time? text).map fun (clock, rest) => .ok (.time clock, rest)

end LineProbe.Toml
