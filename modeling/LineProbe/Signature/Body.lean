import LineProbe.Signature.Pattern

/-!
# Statements and definitions

Recognisers for the statements of a function body and for the definition as a whole.

The language has a parser of its own, outside of this program. The modules from `Signature/Token` up to this one stand
in for it where the parameters of a definition are read. Besides the keywords, the theory takes from them only that
the names they give are identifiers: `definitionOf?_checked`.
-/

namespace LineProbe.Signature

/-! ## Simple statements -/

def updateMarks : List Text :=
  List.map String.toList
    ["+=", "-=", "*=", "@=", "/=", "%=", "&=", "|=", "^=", "<<=", ">>=", "**=", "//="]

def nameRow : Nat → Recognizer (Option Fault)
  | 0 => failure
  | fuel + 1 => do
    let first ← name
    if ← eats "," then return firstFault [nameFault first, ← nameRow fuel]
    else return nameFault first

def givenName : Recognizer (Option Fault) := do
  if ← eats "as" then return nameFault (← name)
  else return none

def importedModules : Nat → Recognizer (Option Fault)
  | 0 => failure
  | fuel + 1 => do
    let first ← name
    let fault := namesFault (first :: (← dottedRest fuel))
    let given ← givenName
    if ← eats "," then return firstFault [fault, given, ← importedModules fuel]
    else return firstFault [fault, given]

def importedNames : Nat → (inside : Bool) → Recognizer (Option Fault)
  | 0, _ => failure
  | fuel + 1, inside => do
    let first ← name
    let given ← givenName
    let fault := firstFault [nameFault first, given]
    if ← eats "," then
      if inside && (← sees ")") then return fault
      else return firstFault [fault, ← importedNames fuel inside]
    else return fault

def leadingDots : Nat → Recognizer Bool
  | 0 => failure
  | fuel + 1 => do
    if ← eatsAny [".", "..."] then
      let _ ← leadingDots fuel
      return true
    else return false

def importFrom (fuel : Nat) : Recognizer (Option Fault) := do
  let relative ← leadingDots fuel
  let origin ←
    if (← get).head?.any Token.isName then do
      let first ← name
      pure (namesFault (first :: (← dottedRest fuel)))
    else do
      require relative
      pure none
  eat "import"
  let imported ←
    if ← eats "*" then pure none
    else if ← eats "(" then do
      let fault ← importedNames fuel true
      eat ")"
      pure fault
    else importedNames fuel false
  return firstFault [origin, imported]

def deletions : Nat → Recognizer (Option Fault)
  | 0 => failure
  | fuel + 1 => do
    let first ← primary fuel
    require first.isDeletable
    if ← eats "," then
      let rest ← deletions fuel <|> pure none
      return firstFault [first.fault, rest]
    else return first.fault

def typeParameters : Nat → Recognizer (Option Fault)
  | 0 => failure
  | fuel + 1 => do
    let starred ← eats "*"
    let mapping ← eats "**"
    let called ← name
    let bound ←
      if !starred && !mapping && (← sees ":") then eat ":" *> (some <$> expression fuel)
      else pure none
    let default? ← if ← eats "=" then some <$> starItem fuel else pure none
    require (default?.all fun item => item.phrase.isValue && (starred || !item.starred))
    let fault := firstFault [nameFault called, bound.bind (·.fault), default?.bind (·.phrase.fault)]
    if ← eats "," then
      if ← eats "]" then return fault
      else return firstFault [fault, ← typeParameters fuel]
    else
      eat "]"
      return fault

def typeParameters? (fuel : Nat) : Recognizer (Option Fault) := do
  if ← eats "[" then typeParameters fuel else return none

def assignedValue (fuel : Nat) : Recognizer (Option Fault) := do
  if ← sees "yield" then yielding fuel else values fuel

def assignments : Nat → Recognizer (Option Fault)
  | 0 => failure
  | fuel + 1 => do
    if ← sees "yield" then
      let fault ← yielding fuel
      require !(← sees "=")
      return fault
    else
      let items ← rowBehind fuel (← starItem fuel)
      if ← eats "=" then
        require (areTargets items)
        return firstFault [itemsFault items, ← assignments fuel]
      else
        require (areValues items)
        return itemsFault items

def assignment (fuel : Nat) : Recognizer (Option Fault) := do
  let first ← starItem fuel
  let bare := !first.starred
  if bare && (first.phrase.form = .name || first.phrase.form = .member) && (← sees ":") then
    eat ":"
    let annotation ← expression fuel
    let value ← if ← eats "=" then assignedValue fuel else pure none
    return firstFault [first.phrase.fault, annotation.fault, value]
  else if ← eatsAny updateMarks then
    require (bare && first.phrase.isUpdatable)
    return firstFault [first.phrase.fault, ← assignedValue fuel]
  else
    let items ← rowBehind fuel first
    if ← eats "=" then
      require (areTargets items)
      return firstFault [itemsFault items, ← assignments fuel]
    else
      require (areValues items)
      return itemsFault items

def typeAlias (fuel : Nat) : Recognizer (Option Fault) := do
  let called ← name
  let types ← typeParameters? fuel
  eat "="
  let value ← expression fuel
  return firstFault [nameFault called, value.fault, types]

def cause (fuel : Nat) : Recognizer (Option Fault) := do
  if ← eats "from" then
    let gap ← gapFault (.keyword "from")
    let found ← expression fuel
    return firstFault [found.fault, gap]
  else return none

def simpleStatement (fuel : Nat) : Recognizer (Option Fault) := do
  if ← eatsAny ["pass", "break", "continue"] then return none
  else if ← eats "return" then
    let gap ← gapFault (.statement "return")
    let value ← values fuel <|> pure none
    return firstFault [value, gap]
  else if ← eats "raise" then
    let gap ← gapFault (.statement "raise")
    let raised := do
      let error ← expression fuel
      let origin ← cause fuel
      return firstFault [error.fault, origin, gap]
    raised <|> pure none
  else if ← eats "import" then importedModules fuel
  else if ← eats "from" then importFrom fuel
  else if ← eats "del" then
    let gap ← gapFault (.statement "del")
    let deleted ← deletions fuel
    return firstFault [deleted, gap]
  else if ← sees "yield" then yielding fuel
  else if ← eats "assert" then
    let gap ← gapFault (.statement "assert")
    let test ← expression fuel
    let reason ← if ← eats "," then some <$> expression fuel else pure none
    return firstFault [test.fault, reason.bind (·.fault), gap]
  else if ← eatsAny ["global", "nonlocal"] then nameRow fuel
  else if (← sees "type") && ((← get).drop 1).head?.any Token.isName then eat "type" *> typeAlias fuel
  else assignment fuel

def simpleStatements : Nat → Recognizer (Option Fault)
  | 0 => failure
  | fuel + 1 => do
    let first ← simpleStatement fuel
    if (← eats ";") && !(← seesKind .newline) then return firstFault [first, ← simpleStatements fuel]
    else
      let _ ← eatKind .newline
      return first

/-! ## Headers of compound statements -/

structure Definition where
  parameters : List Text
  fault : Option Fault
deriving DecidableEq, Repr

def decorators : Nat → Recognizer (Option Fault)
  | 0 => failure
  | fuel + 1 => do
    if ← eats "@" then
      let decorator ← named fuel
      require decorator.isValue
      let _ ← eatKind .newline
      return firstFault [decorator.fault, ← decorators fuel]
    else return none

def condition (fuel : Nat) : Recognizer (Option Fault) := do
  let test ← named fuel
  require test.isValue
  return test.fault

def managed (fuel : Nat) : Recognizer (Option Fault) := do
  let manager ← expression fuel
  if ← eats "as" then
    let bound ← target fuel
    require ((← get).head?.any fun token => [[','], [':'], [')']].contains token.text)
    return firstFault [manager.fault, bound]
  else return manager.fault

def managedRow : Nat → (inside : Bool) → Recognizer (Option Fault)
  | 0, _ => failure
  | fuel + 1, inside => do
    let first ← managed fuel
    if ← eats "," then
      if inside && (← sees ")") then return first
      else return firstFault [first, ← managedRow fuel inside]
    else return first

def withHeader (fuel : Nat) : Recognizer (Option Fault) :=
  let inside := do
    eat "("
    let fault ← managedRow fuel true
    eat ")"
    eat ":"
    return fault
  let outside := do
    let fault ← managedRow fuel false
    eat ":"
    return fault
  inside <|> outside

def handled : Nat → Recognizer (Option Fault)
  | 0 => failure
  | fuel + 1 => do
    let first ← expression fuel
    if ← sees "as" then
      let given ← givenName
      eat ":"
      return firstFault [first.fault, given]
    else if ← sees "," then
      let others ← rowBehind fuel ⟨false, first⟩
      require (others.all fun item => !item.starred && item.phrase.isValue)
      eat ":"
      return itemsFault others
    else
      eat ":"
      return first.fault

structure Handler where
  bare : Bool
  fault : Option Fault
deriving DecidableEq, Repr

def subject (fuel : Nat) : Recognizer (Option Fault) := do
  let first ← item fuel
  if ← eats "," then
    let all := first :: (← items fuel ":")
    require (areValues all)
    return itemsFault all
  else
    require (!first.starred && first.phrase.isValue)
    return first.phrase.fault

/-! ## Compound statements -/

mutual

def block : Nat → Recognizer (Option Fault)
  | 0 => failure
  | fuel + 1 => do
    if ← seesKind .newline then
      let _ ← eatKind .newline
      let _ ← eatKind .indent
      let fault ← statements fuel
      let _ ← eatKind .dedent
      return fault
    else simpleStatements fuel

def statements : Nat → Recognizer (Option Fault)
  | 0 => failure
  | fuel + 1 => do
    let first ← statement fuel
    if ← seesKind .dedent then return first
    else return firstFault [first, ← statements fuel]

def statement : Nat → Recognizer (Option Fault)
  | 0 => failure
  | fuel + 1 => do
    if ← sees "@" then
      let decorated ← decorators fuel
      if ← eats "class" then classDefinition fuel decorated
      else
        let _ ← eatsKeyword "async"
        eat "def"
        let found ← functionDefinition fuel decorated
        return found.fault
    else if ← eatsKeyword "async" then
      if ← eats "def" then return (← functionDefinition fuel none).fault
      else if ← eats "for" then forStatement fuel
      else eat "with" *> withStatement fuel
    else if ← eats "def" then return (← functionDefinition fuel none).fault
    else if ← eats "class" then classDefinition fuel none
    else if ← eats "if" then ifStatement fuel
    else if ← eats "for" then forStatement fuel
    else if ← eats "while" then
      let gap ← gapFault (.keyword "while")
      let test ← condition fuel
      eat ":"
      let body ← block fuel
      return firstFault [test, body, ← otherwise fuel, gap]
    else if ← eats "with" then withStatement fuel
    else if ← eats "try" then tryStatement fuel
    else if ← sees "match" then (eat "match" *> matchStatement fuel) <|> simpleStatements fuel
    else simpleStatements fuel

def functionDefinition : Nat → (decorated : Option Fault) → Recognizer Definition
  | 0, _ => failure
  | fuel + 1, decorated => do
    let called ← name
    let types ← typeParameters? fuel
    eat "("
    let entries ← parameters fuel true ")" .start
    eat ")"
    let result ← if ← eats "->" then some <$> expression fuel else pure none
    eat ":"
    let body ← block fuel
    return ⟨entryNames entries, firstFault [nameFault called, entriesFault entries, body, decorated,
      types, result.bind (·.fault)]⟩

def classDefinition : Nat → (decorated : Option Fault) → Recognizer (Option Fault)
  | 0, _ => failure
  | fuel + 1, decorated => do
    let called ← name
    let types ← typeParameters? fuel
    let passed ← if ← eats "(" then arguments fuel .positional false else pure []
    eat ":"
    let body ← block fuel
    let bases := passed.takeWhile (!·.byName)
    let others := passed.dropWhile (!·.byName)
    return firstFault [nameFault called, body, argumentsFault bases, argumentsFault others, decorated,
      types, if others.all (·.byName) then none else some .positionalLast]

def ifStatement : Nat → Recognizer (Option Fault)
  | 0 => failure
  | fuel + 1 => do
    let gap ← gapFault (.keyword "if")
    let test ← condition fuel
    eat ":"
    let body ← block fuel
    let other ← if ← eats "elif" then ifStatement fuel else otherwise fuel
    return firstFault [test, body, other, gap]

def otherwise : Nat → Recognizer (Option Fault)
  | 0 => failure
  | fuel + 1 => do
    if ← eats "else" then
      eat ":"
      block fuel
    else return none

def forStatement : Nat → Recognizer (Option Fault)
  | 0 => failure
  | fuel + 1 => do
    let targetGap ← gapFault (.keyword "for")
    let bound ← targets fuel
    eat "in"
    let sourceGap ← gapFault (.keyword "in")
    let source ← values fuel
    eat ":"
    let body ← block fuel
    return firstFault [bound, source, body, ← otherwise fuel, targetGap, sourceGap]

def withStatement : Nat → Recognizer (Option Fault)
  | 0 => failure
  | fuel + 1 => do
    let gap ← gapFault .management
    let header ← withHeader fuel
    let body ← block fuel
    return firstFault [header, body, gap]

def tryStatement : Nat → Recognizer (Option Fault)
  | 0 => failure
  | fuel + 1 => do
    eat ":"
    let body ← block fuel
    if ← sees "finally" then return firstFault [body, ← finish fuel]
    else
      eat "except"
      let caught ← handlers fuel (← sees "*")
      let other ← otherwise fuel
      let last ← if ← sees "finally" then finish fuel else pure none
      let misplaced := caught.dropLast.any (·.bare)
      return firstFault [body, firstFault (caught.map (·.fault)), other, last,
        if misplaced then some .bareHandlerFirst else none]

def handlers : Nat → (starred : Bool) → Recognizer (List Handler)
  | 0, _ => failure
  | fuel + 1, starred => do
    if starred then eat "*"
    let bare ← eats ":"
    require !(bare && starred)
    let caught ← if bare then pure none else handled fuel
    let body ← block fuel
    let later ← if ← eats "except" then handlers fuel starred else pure []
    return ⟨bare, firstFault [body, caught]⟩ :: later

def finish : Nat → Recognizer (Option Fault)
  | 0 => failure
  | fuel + 1 => do
    eat "finally"
    eat ":"
    block fuel

def matchStatement : Nat → Recognizer (Option Fault)
  | 0 => failure
  | fuel + 1 => do
    let matched ← subject fuel
    eat ":"
    let _ ← eatKind .newline
    let _ ← eatKind .indent
    let found ← cases fuel
    let _ ← eatKind .dedent
    return firstFault [matched, found]

def cases : Nat → Recognizer (Option Fault)
  | 0 => failure
  | fuel + 1 => do
    eat "case"
    let found ← casePattern fuel
    let guarded ← if ← eats "if" then condition fuel else pure none
    eat ":"
    let body ← block fuel
    let later ← if ← sees "case" then cases fuel else pure none
    return firstFault [found, body, guarded, later]

end

/-! ## Definitions -/

def definition? (tokens : List Token) : Option Definition := do
  let (found, rest) ← (eat "def" *> functionDefinition (32 * (tokens.length + 1)) none).run tokens
  if rest.isEmpty then some found else none

def definitionOf? (header : Text) : Option Definition :=
  (tokens? (header ++ " pass\n")).bind definition?

end LineProbe.Signature
