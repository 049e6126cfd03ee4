import LineProbe.Signature.Fault
import LineProbe.Signature.Token

/-!
# Phrases

What a recogniser learns about an expression: what it can be used as, and its first fault.

A part of the parser in `Signature/Body`.
-/

namespace LineProbe.Signature

/-! ## Phrases -/

inductive Form where
  | name
  | member
  | operation
  | compound
deriving DecidableEq, Repr

structure Phrase where
  form : Form
  isValue : Bool
  isTarget : Bool
  isDeletable : Bool
  isUpdatable : Bool
  fault : Option Fault
deriving DecidableEq, Repr

namespace Phrase

def operation (fault : Option Fault) : Phrase :=
  ⟨.operation, true, false, false, false, fault⟩

def compound (fault : Option Fault) : Phrase :=
  ⟨.compound, true, false, false, false, fault⟩

def member (fault : Option Fault) : Phrase :=
  ⟨.member, true, true, true, true, fault⟩

def ofName (name : Text) : Phrase :=
  ⟨.name, true, true, true, true, nameFault name⟩

def grouped (phrase : Phrase) : Phrase :=
  { phrase with form := .operation }

end Phrase

structure Item where
  starred : Bool
  phrase : Phrase
deriving DecidableEq, Repr

def itemsFault (items : List Item) : Option Fault :=
  firstFault (items.map (·.phrase.fault))

def areValues (items : List Item) : Bool :=
  items.all (·.phrase.isValue)

def areTargets (items : List Item) : Bool :=
  items.all (·.phrase.isTarget)

def Phrase.ofItems (items : List Item) : Phrase :=
  { form := .operation
    isValue := areValues items
    isTarget := areTargets items
    isDeletable := items.all fun item => !item.starred && item.phrase.isDeletable
    isUpdatable := false
    fault := itemsFault items }

def Phrase.ofLoneItem (item : Item) : Phrase :=
  if item.starred then
    { item.phrase with form := .operation, isValue := false, isDeletable := false, isUpdatable := false }
  else item.phrase.grouped

/-! ## Parameters -/

structure Parameter where
  name : Text
  fault : Option Fault
deriving DecidableEq, Repr

inductive ParameterEntry where
  | plain (parameter : Parameter)
  | slash
  | star (parameter : Parameter)
  | bareStar
  | mapping (parameter : Parameter)
deriving DecidableEq, Repr

namespace ParameterEntry

def parameter? : ParameterEntry → Option Parameter
  | .plain parameter | .star parameter | .mapping parameter => some parameter
  | .slash | .bareStar => none

def plain? : ParameterEntry → Option Parameter
  | .plain parameter => some parameter
  | _ => none

def isStar : ParameterEntry → Bool
  | .star _ | .bareStar => true
  | _ => false

end ParameterEntry

def entryNames (entries : List ParameterEntry) : List Text :=
  (entries.filterMap (·.parameter?)).map (·.name)

def entriesFault (entries : List ParameterEntry) : Option Fault :=
  let front := entries.takeWhile (!·.isStar)
  let back := entries.dropWhile (!·.isStar)
  let only := if front.contains .slash then front.takeWhile (· ≠ .slash) else []
  let faults := fun (entries : List ParameterEntry) =>
    (entries.filterMap (·.plain?)).map (·.fault)
  let starred := (entries.filterMap (·.parameter?)).map (·.fault)
  firstFault (faults (front.drop only.length) ++ faults back ++ faults only ++ starred)

/-! ## Recognisers -/

abbrev Recognizer := StateT (List Token) Option

def sees (text : String) : Recognizer Bool := do
  return (← get).head?.any (·.text == text.toList)

def seesKind (kind : TokenKind) : Recognizer Bool := do
  return (← get).head?.any (·.kind == kind)

def takeIf (condition : Token → Bool) : Recognizer Token := fun tokens =>
  match tokens with
  | [] => none
  | token :: rest => if condition token then some (token, rest) else none

def eat (text : String) : Recognizer Unit :=
  discard (takeIf (·.text == text.toList))

def eats (text : String) : Recognizer Bool := do
  if ← sees text then
    eat text
    return true
  else return false

def Token.isNumber (token : Token) : Bool :=
  match token.kind with
  | .number _ => true
  | _ => false

def number : Recognizer Text := do
  return (← takeIf Token.isNumber).text

def gapFault (gap : Gap) : Recognizer (Option Fault) := do
  return if ← seesKind (.number true) then some (.noGap gap) else none

def eatKind (kind : TokenKind) : Recognizer Token :=
  takeIf (·.kind == kind)

def keywords : List Text :=
  List.map String.toList
    ["False", "None", "True", "and", "as", "assert", "async", "await", "break", "class", "continue",
     "def", "del", "elif", "else", "except", "finally", "for", "from", "global", "if", "import",
     "in", "is", "lambda", "nonlocal", "not", "or", "pass", "raise", "return", "try", "while",
     "with", "yield"]

def constants : List Text :=
  ["True", "False", "None"]

def Token.isName (token : Token) : Bool :=
  token.kind == .word && !keywords.contains token.text

def Token.isKeyword (token : Token) (text : String) : Bool :=
  token.kind == .word && token.text == text.toList

def name : Recognizer Text := do
  return (← takeIf Token.isName).text

def seesNameThen (text : String) : Recognizer Bool := do
  match ← get with
  | first :: second :: _ => return first.isName && second.text == text.toList
  | _ => return false

def seesKeyword (text : String) : Recognizer Bool := do
  return (← get).head?.any (·.isKeyword text)

def eatsKeyword (text : String) : Recognizer Bool := do
  if ← seesKeyword text then
    discard (takeIf (·.isKeyword text))
    return true
  else return false

def require (condition : Bool) : Recognizer Unit :=
  if condition then pure () else failure

def seesClause : Recognizer Bool := do
  match ← get with
  | first :: rest =>
    return first.text == "for".toList ||
      (first.isKeyword "async" && rest.head?.any (·.text == "for".toList))
  | [] => return false

def binaryMarks : List Text :=
  ["|", "^", "&", "<<", ">>", "+", "-", "*", "/", "//", "%", "@", "**"]

def signMarks : List Text :=
  ["+", "-", "~"]

def comparisonMarks : List Text :=
  ["==", "!=", "<=", "<", ">=", ">", "in"]

def eatsAny (texts : List Text) : Recognizer Bool := do
  if (← get).head?.any (texts.contains ·.text) then
    discard (takeIf fun _ => true)
    return true
  else return false

def eatsComparison : Recognizer Bool := fun tokens =>
  match tokens with
  | first :: second :: rest =>
    if comparisonMarks.contains first.text then some (true, second :: rest)
    else if first.text = "not" then
      if second.text = "in" then some (true, rest) else some (false, tokens)
    else if first.text = "is" then
      some (true, if second.text = "not" then rest else second :: rest)
    else some (false, tokens)
  | _ => some (false, tokens)

end LineProbe.Signature
