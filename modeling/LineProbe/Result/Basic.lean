import LineProbe.Number.Integer

/-!
# Chunks and results

A run prints chunks, each of them tagged with the number of a line.
-/

namespace LineProbe

structure Chunk where
  text : Text
  isError : Bool
deriving DecidableEq, Repr

structure LineResult where
  line : Int
  value : Text
  isError : Bool
deriving DecidableEq, Repr

def LineResult.empty (line : Int) : LineResult :=
  ⟨line, [], false⟩

/-! ## Tags -/

def tagDigits (text : Text) : Text :=
  text.takeWhile Text.isDigitChar

def startsWithTag (text : Text) : Bool :=
  let digits := tagDigits text
  digits ≠ [] && (text.drop digits.length).head? == some ':'

def parseTag (text : Text) : Except DigitLimitError (Option (Nat × Text)) :=
  let digits := tagDigits text
  if startsWithTag text then do
    let line ← Text.readDigits digits
    return some (line, text.drop (digits.length + 1))
  else .ok none

/-- A payload on one line: line ends are written as a backslash and `n`. -/
def encodePayload : Text → Text
  | [] => []
  | '\r' :: '\n' :: rest => '\\' :: 'n' :: encodePayload rest
  | c :: rest => if c = '\n' then '\\' :: 'n' :: encodePayload rest else c :: encodePayload rest

def decodePayload : Text → Text
  | [] => []
  | '\\' :: 'n' :: rest => '\n' :: decodePayload rest
  | c :: rest => c :: decodePayload rest

end LineProbe
