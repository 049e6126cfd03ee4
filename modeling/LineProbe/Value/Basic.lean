import LineProbe.Number.Shortest
import LineProbe.Text.Quoted

/-!
# Values

The values that configuration files and request payloads consist of, and the text that messages show for them.
-/

namespace LineProbe

structure Date where
  year : Nat
  month : Nat
  day : Nat
deriving DecidableEq, Repr

structure TimeOfDay where
  hour : Nat
  minute : Nat
  second : Nat
  microsecond : Nat
deriving DecidableEq, Repr

inductive Value where
  | null
  | bool (b : Bool)
  | int (n : Int)
  | float (x : Binary64)
  | str (text : Text)
  | list (items : List Value)
  | table (entries : List (Text × Value))
  | date (day : Date)
  | time (clock : TimeOfDay)
  | moment (day : Date) (clock : TimeOfDay) (offset : Option Int)
deriving Repr, Inhabited

namespace Value

/-! ## Tables -/

def lookup (key : Text) (entries : List (Text × Value)) : Option Value :=
  (entries.find? fun entry => entry.1 == key).map Prod.snd

def insert (key : Text) (value : Value) : List (Text × Value) → List (Text × Value)
  | [] => [(key, value)]
  | entry :: entries =>
    if entry.1 = key then (key, value) :: entries else entry :: insert key value entries

def get? (value : Value) (key : Text) : Option Value :=
  match value with
  | .table entries => lookup key entries
  | _ => none

/-! ## The text that messages show -/

def dropZeros : Nat → List Nat → List Nat
  | 0, parts => parts
  | most + 1, parts => if parts.getLast? == some 0 then dropZeros most parts.dropLast else parts

def numberRow (parts : List Nat) : Text :=
  Text.join ", " (parts.map Text.ofNat)

def dateParts (day : Date) : List Nat :=
  [day.year, day.month, day.day]

def timeParts (clock : TimeOfDay) : List Nat :=
  dropZeros 2 [clock.hour, clock.minute, clock.second, clock.microsecond]

def zoneText (offset : Int) : Text :=
  if offset = 0 then "datetime.timezone.utc"
  else
    let seconds := 60 * offset
    let inner : Text :=
      if 0 ≤ seconds then "seconds=" ++ Text.ofInt seconds
      else if seconds = -86400 then "days=-1"
      else "days=-1, seconds=" ++ Text.ofInt (seconds + 86400)
    "datetime.timezone(datetime.timedelta(" ++ inner ++ "))"

mutual

def shown : Value → Text
  | .null => "None"
  | .bool b => if b then "True" else "False"
  | .int n => Text.ofInt n
  | .float x => x.text
  | .str text => Text.quoted text
  | .list items => "[" ++ Text.join ", " (shownItems items) ++ "]"
  | .table entries => "\x7b" ++ Text.join ", " (shownEntries entries) ++ "\x7d"
  | .date day => "datetime.date(" ++ numberRow (dateParts day) ++ ")"
  | .time clock => "datetime.time(" ++ numberRow (timeParts clock) ++ ")"
  | .moment day clock offset =>
    "datetime.datetime(" ++ numberRow (dateParts day ++ timeParts clock) ++
      (match offset with
        | none => []
        | some offset => ", tzinfo=" ++ zoneText offset) ++ ")"

def shownItems : List Value → List Text
  | [] => []
  | item :: items => shown item :: shownItems items

def shownEntries : List (Text × Value) → List Text
  | [] => []
  | (key, value) :: entries => (Text.quoted key ++ ": " ++ shown value) :: shownEntries entries

end

mutual

def integers : Value → List Int
  | .int n => [n]
  | .list items => itemIntegers items
  | .table entries => entryIntegers entries
  | _ => []

def itemIntegers : List Value → List Int
  | [] => []
  | item :: items => integers item ++ itemIntegers items

def entryIntegers : List (Text × Value) → List Int
  | [] => []
  | (_, value) :: entries => integers value ++ entryIntegers entries

end

def kindName : Value → Text
  | .null => "NoneType"
  | .bool _ => "bool"
  | .int _ => "int"
  | .float _ => "float"
  | .str _ => "str"
  | .list _ => "list"
  | .table _ => "dict"
  | .date _ => "date"
  | .time _ => "time"
  | .moment .. => "datetime"

end Value

end LineProbe
