import LineProbe.Construct.Basic
import LineProbe.Signature.Parameters

/-!
# Recognising constructs

One recogniser per construct, each by text alone, and `classify`, which takes the first of them that answers.
-/

namespace LineProbe.Construct

open Text

/-! ## Parts of the code -/

def firstWord (code : Text) : Text :=
  nameAtStart code

def indexOf (code rest : Text) : Nat :=
  code.length - rest.length

def afterAttributes (text : Text) : Text :=
  match _h : trimLeft text with
  | '.' :: rest =>
    let member := nameAtStart (trimLeft rest)
    if member = [] then text else afterAttributes ((trimLeft rest).drop member.length)
  | _ => text
termination_by text.length
decreasing_by
  have := length_trimLeft_le text
  have := length_trimLeft_le rest
  rw [_h] at *
  simp only [List.length_cons, List.length_drop] at *
  omega

def afterTarget? (code : Text) : Option Text :=
  let name := nameAtStart code
  if name = [] then none else some (afterAttributes (code.drop name.length))

def targetBefore (code rest : Text) : Text :=
  (code.take (indexOf code rest)).filter (!isBlankChar ·)

def afterEquals? : Text → Option Text
  | '=' :: rest => if rest.head? == some '=' then none else some rest
  | _ => none

def operator? : Text → Option (Text × Text)
  | '*' :: '*' :: rest => some ("**", rest)
  | '/' :: '/' :: rest => some ("//", rest)
  | '>' :: '>' :: rest => some (">>", rest)
  | '<' :: '<' :: rest => some ("<<", rest)
  | c :: rest => if "-+*/%@&|^".toList.contains c then some ([c], rest) else none
  | [] => none

def mayAssign (code : Text) : Bool :=
  !Signature.keywords.contains (firstWord code) && (findChar? code ';').isNone

/-! ## Recognisers -/

def decorator? (code : Text) : Option Construct :=
  if code.head? == some '@' then some .decorator else none

def assignment? (code : Text) : Option Construct := do
  let rest ← afterTarget? code
  let value ← afterEquals? (trimLeft rest)
  if mayAssign code then some (.assignment (targetBefore code rest) (indexOf code value)) else none

def augmented? (code : Text) : Option Construct := do
  let rest ← afterTarget? code
  let (operator, behind) ← operator? (trimLeft rest)
  let value ← afterEquals? behind
  if mayAssign code then some (.augmented (targetBefore code rest) operator (indexOf code value))
  else none

def afterAnnotationColon? (code : Text) : Option (Text × Text) := do
  let rest ← afterTarget? code
  match trimLeft rest with
  | ':' :: behind => if behind.head? == some '=' then none else some (rest, behind)
  | _ => none

def annotated? (code : Text) : Option Construct := do
  let (rest, behind) ← afterAnnotationColon? code
  let equals ← findChar? code '=' (indexOf code behind)
  if code[equals + 1]? == some '=' || code[equals - 1]?.any ("<>!".toList.contains ·) then none
  else if mayAssign code then some (.annotated (targetBefore code rest) (equals + 1))
  else none

def annotationOnly? (code : Text) : Option Construct := do
  let _ ← afterAnnotationColon? code
  if Signature.keywords.contains (firstWord code) || endsWithChar code ':' then none else some .plain

def print? (code : Text) : Option Construct := do
  if !startsWith code "print" then none
  let rest := trimLeft (code.drop 5)
  if rest.head? != some '(' then none
  let openParen := indexOf code rest
  let closeParen ← matchingBracket? code openParen
  if trim (code.drop (closeParen + 1)) = [] then some (.printCall openParen closeParen) else none

def forHeader? (code : Text) : Option Construct := do
  if !(startsWith code "for" && code[3]?.any isBlankChar && endsWithChar code ':') then none
  let index ← findKeyword? code "in" 3
  let iterable := trim (slice code (index + 2) (code.length - 1))
  if iterable = [] then none else some (.forHeader (code.take (index + 2) ++ [' ']) iterable)

def returning? (code : Text) : Option Construct :=
  if firstWord code = "return" then some (.returning (trim (code.drop 6))) else none

def afterSpacedWord? (word text : Text) : Option Text :=
  if startsWith text word then
    let rest := text.drop word.length
    if rest.head?.any isBlankChar then some (trimLeft rest) else none
  else none

def defParts? (code : Text) : Option (Text × Text) := do
  let start := (afterSpacedWord? "async" code).getD code
  let rest ← afterSpacedWord? "def" start
  let name := nameAtStart rest
  if name = [] then none
  let behind := trimLeft (rest.drop name.length)
  if behind.head? != some '(' || !endsWithChar code ':' then none
  let openParen := indexOf code behind
  let closeParen ← matchingBracket? code openParen
  return (name, slice code (openParen + 1) closeParen)

def defHeader? (code : Text) : Except Signature.Fault (Option Construct) :=
  match defParts? code with
  | none => .ok none
  | some (name, inner) =>
    (Signature.parameterNames code inner).map fun params => some (.defHeader name params)

def blockHeader? (code : Text) : Option Construct :=
  if endsWithChar code ':' then some (.blockHeader (firstWord code)) else none

def inlineCompound? (code : Text) : Option Construct := do
  if !compoundKeywords.contains (firstWord code) then none
  let colon ← findColon? code
  if trim (code.drop (colon + 1)) = [] then none else some (.inlineCompound colon)

def ignorable? (code : Text) : Option Construct :=
  let word := firstWord code
  if ignorableKeywords.contains word then some (.ignorable word) else none

/-! ## Classification -/

def total (recognizer : Text → Option Construct) (code : Text) :
    Except Signature.Fault (Option Construct) :=
  .ok (recognizer code)

def recognizers : List (Text → Except Signature.Fault (Option Construct)) :=
  [total decorator?, total augmented?, total assignment?, total annotated?, total annotationOnly?,
   total print?, total forHeader?, total returning?, defHeader?, total blockHeader?,
   total inlineCompound?, total ignorable?]

def classify (code : Text) : Except Signature.Fault Construct := do
  return (← recognizers.findSomeM? (· code)).getD .plain

def isDocstring (code : Text) : Bool :=
  let text := trimLeft code
  let letters := text.takeWhile ("rRuUbBfF".toList.contains ·)
  letters.length ≤ 2 && (text[letters.length]?.any fun c => c == '\'' || c == '"')

end LineProbe.Construct
