import LineProbe.Scan.Place

/-!
# Calls by name

The places in a text where one of several names stands with an opening parenthesis behind it.
-/

namespace LineProbe

structure NamedCall where
  name : Text
  start : Nat
  openParen : Nat
deriving DecidableEq, Repr

def callAtStart? (names : List Text) (text : Text) : Option (Text × Nat) :=
  names.findSome? fun name =>
    let behind := Text.trimLeft (text.drop name.length)
    if Text.startsWith text name && behind.head? == some '(' then
      some (name, text.length - behind.length)
    else none

def callsFrom (names : List Text) (joins : Char → Bool) (previous : Option Char) (index : Nat) :
    Text → List NamedCall
  | [] => []
  | c :: rest =>
    let later := callsFrom names joins (some c) (index + 1) rest
    if previous.any joins then later
    else
      match callAtStart? names (c :: rest) with
      | some (name, offset) => ⟨name, index, index + offset⟩ :: later
      | none => later

def namedCalls (names : List Text) (joins : Char → Bool) (text : Text) : List NamedCall :=
  callsFrom names joins none 0 text

end LineProbe
