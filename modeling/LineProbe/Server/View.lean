import LineProbe.Result.Basic

/-!
# What an editor shows

Hints beside the lines of a document, diagnostics for errors, and the text for a line under the pointer.
-/

namespace LineProbe.View

def hintWidth : Int := 80

def truncate (text : Text) (width : Int) : Text :=
  if text.length ≤ width then text
  else
    let kept := width - 3
    let front := if kept < 0 then text.take (text.length + kept).toNat else text.take kept.toNat
    front ++ "..."

def place? (lines : List Text) (result : LineResult) : Option Nat :=
  if lines = [] || result.line < 0 then none else some (min result.line.toNat (lines.length - 1))

def lineLength (lines : List Text) (line : Nat) : Nat :=
  (lines.getD line []).length

structure Hint where
  line : Nat
  column : Nat
  label : Text
deriving DecidableEq, Repr

def hint? (lines : List Text) (first last : Int) (result : LineResult) : Option Hint := do
  let line ← place? lines result
  if result.value = [] || (line : Int) < first || last < (line : Int) then none
  else some ⟨line, lineLength lines line, truncate result.value hintWidth⟩

def hints (results : List LineResult) (lines : List Text) (first : Int) (last : Option Int) :
    List Hint :=
  results.filterMap (hint? lines first (last.getD ((lines.length : Int) - 1)))

structure Diagnostic where
  line : Nat
  length : Nat
  message : Text
deriving DecidableEq, Repr

def diagnostic? (lines : List Text) (result : LineResult) : Option Diagnostic := do
  let line ← place? lines result
  if result.isError then some ⟨line, lineLength lines line, result.value⟩ else none

def diagnostics (results : List LineResult) (lines : List Text) : List Diagnostic :=
  results.filterMap (diagnostic? lines)

def hover (results : List LineResult) (line : Int) : Option Text :=
  (results.find? fun result => result.line = line && result.value ≠ []).map fun result =>
    (if result.isError then "error: ".toList else []) ++ decodePayload result.value

end LineProbe.View
