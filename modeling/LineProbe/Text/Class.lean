import LineProbe.Text.Table

/-!
# Classes of characters

Blank characters, word characters, decimal digits, identifier characters and characters that have no printed form.
-/

namespace LineProbe.Text

def inRanges (table : List (Nat × Nat)) (code : Nat) : Bool :=
  table.any fun range => range.1 ≤ code && code ≤ range.2

def isBlankChar (c : Char) : Bool :=
  let code := c.toNat
  if code < 0x80 then (0x09 ≤ code && code ≤ 0x0d) || (0x1c ≤ code && code ≤ 0x20)
  else code == 0x85 || code == 0xa0 || code == 0x1680 || (0x2000 ≤ code && code ≤ 0x200a) ||
    code == 0x2028 || code == 0x2029 || code == 0x202f || code == 0x205f || code == 0x3000

def isAlphanumeric (c : Char) : Bool :=
  if c.toNat < 0x80 then c.isAlphanum else inRanges wordRanges c.toNat

def isWordChar (c : Char) : Bool :=
  c == '_' || isAlphanumeric c

def isNameStart (c : Char) : Bool :=
  c == '_' || c.isAlpha

def digitValue? (c : Char) : Option Nat :=
  if c.toNat < 0x80 then
    if c.isDigit then some (c.toNat - '0'.toNat) else none
  else (digitZeros.find? fun first => first ≤ c.toNat && c.toNat < first + 10).map (c.toNat - ·)

def isDigitChar (c : Char) : Bool :=
  (digitValue? c).isSome

def isIdentifierStart (c : Char) : Bool :=
  if c.toNat < 0x80 then isNameStart c else isAlphanumeric c != inRanges identifierStartChanges c.toNat

def isIdentifierRest (c : Char) : Bool :=
  if c.toNat < 0x80 then c == '_' || c.isAlphanum
  else isIdentifierStart c != inRanges identifierRestChanges c.toNat

def isPrintable (c : Char) : Bool :=
  if c.toNat < 0x80 then 0x20 ≤ c.toNat && c.toNat < 0x7f
  else isIdentifierRest c || !inRanges identifierOrHiddenRanges c.toNat

def isAnyIdentifierStart (c : Char) : Bool :=
  isIdentifierStart c || inRanges laterIdentifierStartRanges c.toNat

def isAnyIdentifierRest (c : Char) : Bool :=
  isIdentifierRest c || inRanges laterIdentifierRestRanges c.toNat

def hexValue? (c : Char) : Option Nat :=
  if c.isDigit then some (c.toNat - '0'.toNat)
  else if 'a' ≤ c && c ≤ 'f' then some (c.toNat - 'a'.toNat + 10)
  else if 'A' ≤ c && c ≤ 'F' then some (c.toNat - 'A'.toNat + 10)
  else none

end LineProbe.Text
