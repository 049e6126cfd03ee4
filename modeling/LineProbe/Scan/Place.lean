import LineProbe.Scan.Line

/-!
# Places of code characters

The code characters of a text with their index and bracket depth, and searches over them: a character or a word
outside strings, comments and brackets, and the bracket that closes another.
-/

namespace LineProbe

/-- A code character of a text. Its depth is the nesting outside of it, so an opening bracket and
the bracket that closes it have the same depth. -/
structure Place where
  index : Nat
  depth : Nat
  char : Char
deriving DecidableEq, Repr

def depthOf (depth : Nat) (c : Char) : Nat :=
  if isCloser c then depth - 1 else depth

def depthAfter (depth : Nat) (c : Char) : Nat :=
  if isOpener c then depth + 1 else depth

def Mode.places : Mode → Nat → Nat → Text → List Place
  | _, _, _, [] => []
  | mode, depth, index, c :: rest =>
    if mode.readsCode c then
      let depth := depthOf depth c
      ⟨index, depth, c⟩ :: (mode.next c).places (depthAfter depth c) (index + 1) rest
    else (mode.next c).places depth (index + 1) rest

def places (text : Text) : List Place :=
  Mode.code.places 0 0 text

/-- The first place at the top level, at or after index `start`, that holds `c`. -/
def findChar? (text : Text) (c : Char) (start : Nat := 0) : Option Nat :=
  ((places text).find? fun place =>
    start ≤ place.index && place.depth == 0 && place.char == c).map Place.index

def findColon? (text : Text) : Option Nat :=
  ((places text).find? fun place =>
    place.depth == 0 && place.char == ':' && text[place.index + 1]? != some '=').map Place.index

def wordCharAt (text : Text) (index : Nat) : Bool :=
  text[index]?.any Text.isWordChar

def wholeWordAt (text word : Text) (index : Nat) : Bool :=
  Text.startsWith (text.drop index) word && !(0 < index && wordCharAt text (index - 1)) &&
    !wordCharAt text (index + word.length)

def findKeyword? (text word : Text) (start : Nat := 0) : Option Nat :=
  ((places text).find? fun place =>
    start ≤ place.index && place.depth == 0 && wholeWordAt text word place.index).map Place.index

def closingPlace? (count : Int) : List Place → Option Nat
  | [] => none
  | place :: rest =>
    if isOpener place.char then closingPlace? (count + 1) rest
    else if isCloser place.char then
      if count = 1 then some place.index else closingPlace? (count - 1) rest
    else closingPlace? count rest

/-- The index of the bracket that closes the one at index `start`. -/
def matchingBracket? (text : Text) (start : Nat) : Option Nat :=
  if text[start]?.any isOpener then
    closingPlace? 0 ((places text).filter fun place => start ≤ place.index)
  else none

end LineProbe
