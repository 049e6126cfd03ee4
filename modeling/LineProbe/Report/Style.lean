import LineProbe.Failure

/-!
# Terminal styles

Colours of text on a terminal, as escape codes around the text.
-/

namespace LineProbe.Style

def escape : Char := '\x1b'

def code (number : Nat) : Text :=
  escape :: '[' :: Text.ofNat number ++ ['m']

def colors : List (String × Nat) :=
  [("black", 30), ("red", 31), ("green", 32), ("yellow", 33), ("blue", 34), ("magenta", 35),
   ("cyan", 36), ("white", 37), ("reset", 39), ("bright_black", 90), ("bright_red", 91),
   ("bright_green", 92), ("bright_yellow", 93), ("bright_blue", 94), ("bright_magenta", 95),
   ("bright_cyan", 96), ("bright_white", 97)]

def colored (color text : Text) : Except Failure Text :=
  if color = [] then .ok (text ++ code 0)
  else
    match colors.find? (·.1.toList = color) with
    | some (_, number) => .ok (code number ++ text ++ code 0)
    | none => .error (.unknownColor color)

/-! ## Plain text -/

def isParameter (c : Char) : Bool :=
  c.isDigit || c = ';' || c = '?'

def codeLength : Text → Nat
  | c :: '[' :: rest =>
    let parameters := rest.takeWhile isParameter
    if c = escape && (rest.drop parameters.length).head?.any Char.isAlpha then parameters.length + 3
    else 0
  | _ => 0

def plainFrom : Nat → Text → Text
  | _, [] => []
  | skip + 1, _ :: rest => plainFrom skip rest
  | 0, c :: rest =>
    match codeLength (c :: rest) with
    | 0 => c :: plainFrom 0 rest
    | length + 1 => plainFrom length rest

def plain (text : Text) : Text :=
  plainFrom 0 text

end LineProbe.Style
