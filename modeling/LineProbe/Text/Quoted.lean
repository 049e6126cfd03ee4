import LineProbe.Text.Basic

/-!
# Quoted text

A text between quotes, with escapes for backslashes, the quote in use, line ends, tabs and characters that have no
printed form.
-/

namespace LineProbe.Text

def hex (width n : Nat) : Text :=
  let digits := Nat.toDigits 16 n
  List.replicate (width - digits.length) '0' ++ digits

def quoteChar (quote c : Char) : Text :=
  if c = '\\' || c = quote then ['\\', c]
  else if c = '\n' then "\\n"
  else if c = '\r' then "\\r"
  else if c = '\t' then "\\t"
  else if isPrintable c then [c]
  else if c.toNat < 0x100 then "\\x" ++ hex 2 c.toNat
  else if c.toNat < 0x10000 then "\\u" ++ hex 4 c.toNat
  else "\\U" ++ hex 8 c.toNat

def quoteFor (text : Text) : Char :=
  if List.elem '\'' text && !List.elem '"' text then '"' else '\''

def quoted (text : Text) : Text :=
  let quote := quoteFor text
  [quote] ++ text.flatMap (quoteChar quote) ++ [quote]

end LineProbe.Text
