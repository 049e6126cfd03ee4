import LineProbe.Text.Basic

/-!
# Numerals

Where a number of the script language ends: `afterNumber?` gives what is left behind it, or `none` if the digits do
not make up a number.
-/

namespace LineProbe.Signature

def afterDigits? (isDigit : Char → Bool) : Text → Option Text
  | '_' :: c :: rest => if isDigit c then afterDigits? isDigit rest else none
  | c :: rest => if isDigit c then afterDigits? isDigit rest else if c = '_' then none else some (c :: rest)
  | [] => some []

def afterDecimal? : Text → Option Text
  | c :: rest => if c.isDigit then afterDigits? Char.isDigit rest else none
  | [] => none

def afterBased? (isDigit : Char → Bool) : Text → Option Text
  | '_' :: c :: rest => if isDigit c then afterDigits? isDigit rest else none
  | c :: rest => if isDigit c then afterDigits? isDigit rest else none
  | [] => none

def afterImaginary : Text → Text
  | c :: rest => if c = 'j' || c = 'J' then rest else c :: rest
  | [] => []

def afterExponent? : Text → Option Text
  | e :: c :: rest =>
    if e = 'e' || e = 'E' then
      if c = '+' || c = '-' then (afterDecimal? rest).map afterImaginary
      else if c.isDigit then (afterDecimal? (c :: rest)).map afterImaginary
      else some (e :: c :: rest)
    else some (afterImaginary (e :: c :: rest))
  | rest => some (afterImaginary rest)

def afterFraction? (text : Text) : Option Text :=
  if text.head?.any Char.isDigit then (afterDecimal? text).bind afterExponent? else afterExponent? text

def afterWhole? : Text → Option Text
  | '.' :: rest => afterFraction? rest
  | rest => afterExponent? rest

def isFractional : Text → Bool
  | c :: _ => c = '.' || c = 'e' || c = 'E' || c = 'j' || c = 'J'
  | [] => false

def afterNumber? : Text → Option Text
  | '.' :: rest => afterFraction? rest
  | '0' :: c :: rest =>
    if c = 'x' || c = 'X' then
      afterBased? (fun d => d.isDigit || ('a' ≤ d && d ≤ 'f') || ('A' ≤ d && d ≤ 'F')) rest
    else if c = 'o' || c = 'O' then
      (afterBased? (fun d => '0' ≤ d && d ≤ '7') rest).filter fun left => !left.head?.any Char.isDigit
    else if c = 'b' || c = 'B' then
      (afterBased? (fun d => d = '0' || d = '1') rest).filter fun left => !left.head?.any Char.isDigit
    else do
      let left ← afterDigits? Char.isDigit (c :: rest)
      let digits := (c :: rest).take ((c :: rest).length - left.length)
      if digits.all (fun d => d = '0' || d = '_') || isFractional left then afterWhole? left else none
  | text => (afterDecimal? text).bind afterWhole?

end LineProbe.Signature
