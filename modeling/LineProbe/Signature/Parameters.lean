import LineProbe.Scan.Place
import LineProbe.Signature.Body

/-!
# Parameter names of a function header

A header that follows the grammar has the parameter names that the grammar gives, or is refused for a fault.
-/

namespace LineProbe.Signature

def cutAt (text : Text) (c : Char) : Text :=
  match findChar? text c with
  | some index => Text.trim (text.take index)
  | none => text

def pieceName? (piece : Text) : Option Text :=
  let bare := Text.trim ((Text.trim piece).dropWhile (· == '*'))
  let name := cutAt (cutAt bare '=') ':'
  if name ≠ [] ∧ Text.nameAtStart name = name then some name else none

def pieceNames (text : Text) : List Text :=
  if _h : Text.trim text = [] then []
  else
    match findChar? text ',' with
    | none => (pieceName? text).toList
    | some index => (pieceName? (text.take index)).toList ++ pieceNames (text.drop (index + 1))
termination_by text.length
decreasing_by
  have : text ≠ [] := by
    rintro rfl
    exact _h rfl
  have := List.length_pos_iff.2 this
  simp only [List.length_drop]
  omega

def withoutReceiver : List Text → List Text
  | [] => []
  | name :: names => if name = "self" ∨ name = "cls" then names else name :: names

def withoutAsync (header : Text) : Text :=
  let header := Text.trim header
  if Text.startsWith header "async" then Text.trimLeft (header.drop 5) else header

def parameterNames (header inner : Text) : Except Fault (List Text) :=
  match definitionOf? (withoutAsync header) with
  | none => .ok (withoutReceiver (pieceNames inner))
  | some ⟨names, none⟩ => .ok (withoutReceiver names)
  | some ⟨_, some fault⟩ => .error fault

end LineProbe.Signature
