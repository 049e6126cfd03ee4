import LineProbe.Value.Basic

/-!
# JSON

Reading and writing values as JSON.
-/

namespace LineProbe.Value

/-! ## Writing -/

def unitEscape (unit : Nat) : Text :=
  "\\u" ++ Text.hex 4 unit

def jsonChar (c : Char) : Text :=
  if c = '"' || c = '\\' then ['\\', c]
  else if c = '\n' then "\\n"
  else if c = '\r' then "\\r"
  else if c = '\t' then "\\t"
  else if c = '\x08' then "\\b"
  else if c = '\x0c' then "\\f"
  else if 0x20 ≤ c.toNat && c.toNat < 0x7f then [c]
  else if c.toNat < 0x10000 then unitEscape c.toNat
  else
    let offset := c.toNat - 0x10000
    unitEscape (0xd800 + offset / 0x400) ++ unitEscape (0xdc00 + offset % 0x400)

def jsonString (text : Text) : Text :=
  ['"'] ++ text.flatMap jsonChar ++ ['"']

def jsonFloat : Binary64 → Text
  | .nan => "NaN"
  | .infinite negative => if negative then "-Infinity" else "Infinity"
  | x => x.text

structure Layout where
  newEntry : Nat → Text
  colon : Text

def compactLayout : Layout :=
  ⟨fun _ => [], ":"⟩

def indentedLayout : Layout :=
  ⟨fun depth => '\n' :: List.replicate (2 * depth) ' ', ": "⟩

def enclosed (layout : Layout) (depth : Nat) (left right : Char) (entries : List Text) : Text :=
  if entries.isEmpty then [left, right]
  else
    [left] ++ Text.join "," (entries.map fun entry => layout.newEntry (depth + 1) ++ entry) ++
      layout.newEntry depth ++ [right]

mutual

def json (layout : Layout) (depth : Nat) : Value → Text
  | .null => "null"
  | .bool b => if b then "true" else "false"
  | .int n => Text.ofInt n
  | .float x => jsonFloat x
  | .str text => jsonString text
  | .list items => enclosed layout depth '[' ']' (jsonItems layout (depth + 1) items)
  | .table entries => enclosed layout depth '\x7b' '\x7d' (jsonEntries layout (depth + 1) entries)
  | .date day => jsonString (shown (.date day))
  | .time clock => jsonString (shown (.time clock))
  | .moment day clock offset => jsonString (shown (.moment day clock offset))

def jsonItems (layout : Layout) (depth : Nat) : List Value → List Text
  | [] => []
  | item :: items => json layout depth item :: jsonItems layout depth items

def jsonEntries (layout : Layout) (depth : Nat) : List (Text × Value) → List Text
  | [] => []
  | (key, value) :: entries =>
    (jsonString key ++ layout.colon ++ json layout depth value) :: jsonEntries layout depth entries

end

def compactJson (value : Value) : Text :=
  json compactLayout 0 value

def indentedJson (value : Value) : Text :=
  json indentedLayout 0 value

/-! ## Reading -/

def afterJsonBlanks (text : Text) : Text :=
  text.dropWhile fun c => c == ' ' || c == '\t' || c == '\n' || c == '\r'

def hexUnit? (a b c d : Char) : Option Nat := do
  return (((← Text.hexValue? a) * 16 + (← Text.hexValue? b)) * 16 + (← Text.hexValue? c)) * 16 + (← Text.hexValue? d)

def escapedChar? (c : Char) : Option Char :=
  if c = '"' || c = '\\' || c = '/' then some c
  else if c = 'n' then some '\n'
  else if c = 'r' then some '\r'
  else if c = 't' then some '\t'
  else if c = 'b' then some '\x08'
  else if c = 'f' then some '\x0c'
  else none

def consString (c : Char) (read : Option (Text × Text)) : Option (Text × Text) :=
  read.map fun (text, rest) => (c :: text, rest)

def unitChar (unit : Nat) : Char :=
  if 0xd800 ≤ unit && unit < 0xe000 then '�' else Char.ofNat unit

def lowUnit? : Text → Option Nat
  | '\\' :: 'u' :: a :: b :: c :: d :: _ =>
    (hexUnit? a b c d).filter fun unit => 0xdc00 ≤ unit && unit < 0xe000
  | _ => none

def readString? : Text → Option (Text × Text)
  | [] => none
  | '"' :: rest => some ([], rest)
  | '\\' :: 'u' :: a :: b :: c :: d :: rest =>
    match hexUnit? a b c d, lowUnit? rest with
    | none, _ => none
    | some unit, none => consString (unitChar unit) (readString? rest)
    | some unit, some low =>
      if 0xd800 ≤ unit && unit < 0xdc00 then
        match rest with
        | _ :: _ :: _ :: _ :: _ :: _ :: rest' =>
          consString (Char.ofNat (0x10000 + (unit - 0xd800) * 0x400 + (low - 0xdc00)))
            (readString? rest')
        | _ => none
      else consString (unitChar unit) (readString? rest)
  | '\\' :: c :: rest =>
    match escapedChar? c with
    | some c => consString c (readString? rest)
    | none => none
  | c :: rest => consString c (readString? rest)

def asciiDigits (text : Text) : Text × Text :=
  text.span Char.isDigit

def asciiValue (digits : Text) : Nat :=
  digits.foldl (fun value c => 10 * value + (c.toNat - '0'.toNat)) 0

def readExponent : Text → Option Int × Text
  | e :: rest =>
    if e = 'e' || e = 'E' then
      let (negative, behind) :=
        match rest with
        | '-' :: behind => (true, behind)
        | '+' :: behind => (false, behind)
        | behind => (false, behind)
      let (digits, left) := asciiDigits behind
      if digits.isEmpty then (none, e :: rest)
      else
        let size : Int := asciiValue digits
        (some (if negative then -size else size), left)
    else (none, e :: rest)
  | [] => (none, [])

def readNumber? (text : Text) : Option (Value × Text) :=
  let (negative, unsigned) :=
    match text with
    | '-' :: rest => (true, rest)
    | rest => (false, rest)
  let (whole, behind) := asciiDigits unsigned
  if whole.isEmpty then none
  else
    let (fraction, behind) :=
      match behind with
      | '.' :: rest =>
        let (digits, left) := asciiDigits rest
        if digits.isEmpty then ([], '.' :: rest) else (digits, left)
      | rest => ([], rest)
    let (exponent, behind) := readExponent behind
    let size := asciiValue (whole ++ fraction)
    if fraction.isEmpty && exponent.isNone then
      some (.int (if negative then -(size : Int) else size), behind)
    else
      some (.float (.ofDecimal negative size (exponent.getD 0 - fraction.length)), behind)

def jsonWords : List (Text × Value) :=
  [("null", .null), ("true", .bool true), ("false", .bool false), ("NaN", .float .nan),
   ("Infinity", .float (.infinite false)), ("-Infinity", .float (.infinite true))]

mutual

def readJson? : Nat → Text → Option (Value × Text)
  | 0, _ => none
  | fuel + 1, text =>
    let text := afterJsonBlanks text
    match text with
    | '"' :: rest => (readString? rest).map fun (text, rest) => (.str text, rest)
    | '[' :: rest =>
      match afterJsonBlanks rest with
      | ']' :: rest => some (.list [], rest)
      | rest => (readItems? fuel rest).map fun (items, rest) => (.list items, rest)
    | '\x7b' :: rest =>
      match afterJsonBlanks rest with
      | '\x7d' :: rest => some (.table [], rest)
      | rest => (readEntries? fuel [] rest).map fun (entries, rest) => (.table entries, rest)
    | text =>
      match jsonWords.find? fun word => Text.startsWith text word.1 with
      | some (word, value) => some (value, text.drop word.length)
      | none => readNumber? text

def readItems? : Nat → Text → Option (List Value × Text)
  | 0, _ => none
  | fuel + 1, text => do
    let (item, rest) ← readJson? fuel text
    match afterJsonBlanks rest with
    | ',' :: rest => do
      let (items, rest) ← readItems? fuel rest
      return (item :: items, rest)
    | ']' :: rest => return ([item], rest)
    | _ => none

def readEntries? : Nat → List (Text × Value) → Text → Option (List (Text × Value) × Text)
  | 0, _, _ => none
  | fuel + 1, entries, text =>
    match afterJsonBlanks text with
    | '"' :: rest => do
      let (key, rest) ← readString? rest
      match afterJsonBlanks rest with
      | ':' :: rest => do
        let (value, rest) ← readJson? fuel rest
        let entries := insert key value entries
        match afterJsonBlanks rest with
        | ',' :: rest => readEntries? fuel entries rest
        | '\x7d' :: rest => return (entries, rest)
        | _ => none
      | _ => none
    | _ => none

end

def ofJson? (text : Text) : Option Value := do
  let (value, rest) ← readJson? (2 * text.length + 2) text
  if (afterJsonBlanks rest).isEmpty then some value else none

end LineProbe.Value
