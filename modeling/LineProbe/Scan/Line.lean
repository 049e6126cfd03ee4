import LineProbe.Scan.Mode

/-!
# What a line leaves open

The net number of brackets a text opens, the string it leaves open, and where its first comment starts.
-/

namespace LineProbe

def isOpener (c : Char) : Bool :=
  c == '(' || c == '[' || c == '\x7b'

def isCloser (c : Char) : Bool :=
  c == ')' || c == ']' || c == '\x7d'

def bracketWeight (c : Char) : Int :=
  if isOpener c then 1 else if isCloser c then -1 else 0

def Mode.bracketDelta : Mode → Text → Int
  | _, [] => 0
  | mode, c :: rest =>
    (if mode.readsCode c then bracketWeight c else 0) + (mode.next c).bracketDelta rest

def Mode.commentStart? : Mode → Text → Option Nat
  | _, [] => none
  | mode, c :: rest =>
    if mode.startsComment c then some 0 else ((mode.next c).commentStart? rest).map (· + 1)

structure Scan where
  delta : Int
  carry : Carry
  comment : Option Nat
deriving DecidableEq, Repr

/-- Reads a text that starts inside the string `carry`. -/
def scan (carry : Carry) (text : Text) : Scan where
  delta := carry.mode.bracketDelta text
  carry := (carry.mode.run text).carry
  comment := carry.mode.commentStart? text

def stripComment (carry : Carry) (text : Text) : Text × Text :=
  match carry.mode.commentStart? text with
  | none => (text, [])
  | some index => (text.take index, Text.trim (text.drop (index + 1)))

def isBlankLine (line : Text) : Bool :=
  match Text.trimLeft line with
  | [] => true
  | c :: _ => c == '#'

def endsWithColon (carry : Carry) (line : Text) : Bool :=
  Text.endsWithChar (Text.trimRight (stripComment carry line).1) ':'

theorem Mode.bracketDelta_append (mode : Mode) (first last : Text) :
    mode.bracketDelta (first ++ last) = mode.bracketDelta first + (mode.run first).bracketDelta last := by
  induction first generalizing mode with
  | nil => simp [Mode.bracketDelta]
  | cons c rest ih => simp [Mode.bracketDelta, ih, Int.add_assoc]

end LineProbe
