import LineProbe.Signature.Expression

/-!
# Patterns

Recognisers for the patterns of the cases of a `match`.

A part of the parser in `Signature/Body`.
-/

namespace LineProbe.Signature

def isImaginary (text : Text) : Bool :=
  text.getLast?.any fun c => c == 'j' || c == 'J'

def numberPattern : Recognizer Unit := do
  let _ ← eats "-"
  let first ← number
  if ← eatsAny ["+", "-"] then
    let second ← number
    require (!isImaginary first && isImaginary second)

def literalPattern (fuel : Nat) : Recognizer (Option Fault) := do
  if ← eatsAny constants then return none
  else if (← get).head?.any Token.isNumber || (← sees "-") then
    numberPattern
    return none
  else
    let pieces ← strings fuel
    require !pieces.isEmpty
    return rowFault pieces

def dottedRest : Nat → Recognizer (List Text)
  | 0 => failure
  | fuel + 1 => do
    if ← eats "." then
      let next ← name
      return next :: (← dottedRest fuel)
    else return []

def namesFault (names : List Text) : Option Fault :=
  firstFault (names.map nameFault)

def captured : Recognizer (Option Fault) := do
  require !(← sees "_")
  let found ← name
  require !(← get).head?.any fun token => [['.'], ['('], ['=']].contains token.text
  return nameFault found

def patternKey (fuel : Nat) : Recognizer (Option Fault) := do
  if ← seesNameThen "." then
    let first ← name
    return namesFault (first :: (← dottedRest fuel))
  else literalPattern fuel

mutual

def pattern : Nat → Recognizer (Option Fault)
  | 0 => failure
  | fuel + 1 => do
    let found ← alternatives fuel
    if ← eats "as" then return firstFault [found, ← captured]
    else return found

def alternatives : Nat → Recognizer (Option Fault)
  | 0 => failure
  | fuel + 1 => do
    let first ← closedPattern fuel
    if ← eats "|" then return firstFault [first, ← alternatives fuel]
    else return first

def closedPattern : Nat → Recognizer (Option Fault)
  | 0 => failure
  | fuel + 1 => do
    if (← get).head?.any Token.isName then
      if ← eats "_" then return none
      else
        let first ← name
        let rest ← dottedRest fuel
        let fault := namesFault (first :: rest)
        if ← eats "(" then return firstFault [fault, ← classArguments fuel false]
        else
          require !(← sees "=")
          return fault
    else if ← eats "(" then
      if ← eats ")" then return none
      else
        let (starred, first) ← rowPattern fuel
        let rest ←
          if ← eats "," then patternRow fuel <|> pure none
          else do
            require !starred
            pure none
        eat ")"
        return firstFault [first, rest]
    else if ← eats "[" then
      let fault ← if ← sees "]" then pure none else patternRow fuel
      eat "]"
      return fault
    else if ← eats "\x7b" then mappingPattern fuel
    else literalPattern fuel

def rowPattern : Nat → Recognizer (Bool × Option Fault)
  | 0 => failure
  | fuel + 1 => do
    if ← eats "*" then
      if ← eats "_" then return (true, none)
      else return (true, ← captured)
    else return (false, ← pattern fuel)

def patternRow : Nat → Recognizer (Option Fault)
  | 0 => failure
  | fuel + 1 => do
    let (_, first) ← rowPattern fuel
    if ← eats "," then
      let rest ← patternRow fuel <|> pure none
      return firstFault [first, rest]
    else return first

def mappingPattern : Nat → Recognizer (Option Fault)
  | 0 => failure
  | fuel + 1 => do
    if ← eats "\x7d" then return none
    else if ← eats "**" then
      let rest ← captured
      let _ ← eats ","
      eat "\x7d"
      return rest
    else
      let key ← patternKey fuel
      eat ":"
      let value ← pattern fuel
      let rest ←
        if ← eats "," then mappingPattern fuel
        else do
          eat "\x7d"
          pure none
      return firstFault [key, value, rest]

def classArguments : Nat → (byName : Bool) → Recognizer (Option Fault)
  | 0, _ => failure
  | fuel + 1, byName => do
    if ← eats ")" then return none
    else
      let named ← seesNameThen "="
      require (named || !byName)
      let key ←
        if named then do
          let found ← name
          eat "="
          pure (nameFault found)
        else pure none
      let value ← pattern fuel
      let rest ←
        if ← eats "," then classArguments fuel named
        else do
          eat ")"
          pure none
      return firstFault [key, value, rest]

end

def casePattern (fuel : Nat) : Recognizer (Option Fault) := do
  let (starred, first) ← rowPattern fuel
  if ← eats "," then
    let rest ← patternRow fuel <|> pure none
    return firstFault [first, rest]
  else
    require !starred
    return first

end LineProbe.Signature
