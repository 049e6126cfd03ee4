import LineProbe.Signature.Phrase

/-!
# Expressions

Recognisers for expressions and for what they are built from.

A part of the parser in `Signature/Body`.
-/

namespace LineProbe.Signature

inductive ArgumentPhase where
  | positional
  | named
  | mapping
deriving DecidableEq, Repr

structure Argument where
  byName : Bool
  fault : Option Fault
deriving DecidableEq, Repr

def argumentsFault (arguments : List Argument) : Option Fault :=
  firstFault (arguments.map (·.fault))

structure ParameterPhase where
  started : Bool
  defaulted : Bool
  slashed : Bool
  starred : Bool
  waiting : Bool
deriving DecidableEq, Repr

def ParameterPhase.start : ParameterPhase :=
  ⟨false, false, false, false, false⟩

def isByteString (text : Text) : Bool :=
  (text.takeWhile fun c => c != '\'' && c != '"').any fun c => c == 'b' || c == 'B'

mutual

def phrase : Nat → Recognizer Phrase
  | 0 => failure
  | fuel + 1 => do
    if ← eats "lambda" then
      let entries ← parameters fuel false ":" .start
      eat ":"
      let body ← expression fuel
      return .compound (firstFault [entriesFault entries, body.fault])
    else
      let body ← disjunction fuel
      if ← eats "if" then
        require body.isValue
        let testGap ← gapFault (.keyword "if")
        let test ← disjunction fuel
        require test.isValue
        eat "else"
        let otherGap ← gapFault (.keyword "else")
        let other ← expression fuel
        return .compound (firstFault [test.fault, body.fault, other.fault, testGap, otherGap])
      else return body

def expression : Nat → Recognizer Phrase
  | 0 => failure
  | fuel + 1 => do
    let found ← phrase fuel
    require found.isValue
    return found

def disjunction : Nat → Recognizer Phrase
  | 0 => failure
  | fuel + 1 => do
    let left ← inversion fuel
    if ← eatsAny ["or", "and"] then
      let gap ← gapFault .junction
      let right ← disjunction fuel
      require (left.isValue && right.isValue)
      return .compound (firstFault [left.fault, gap, right.fault])
    else return left

def inversion : Nat → Recognizer Phrase
  | 0 => failure
  | fuel + 1 => do
    if ← eats "not" then
      let gap ← gapFault .negation
      let inner ← inversion fuel
      require inner.isValue
      return .compound (firstFault [inner.fault, gap])
    else comparison fuel

def comparison : Nat → Recognizer Phrase
  | 0 => failure
  | fuel + 1 => do
    let left ← operation fuel
    if ← eatsComparison then
      let gap ← gapFault .comparison
      let right ← comparison fuel
      require (left.isValue && right.isValue)
      return .compound (firstFault [left.fault, gap, right.fault])
    else return left

def operation : Nat → Recognizer Phrase
  | 0 => failure
  | fuel + 1 => do
    let left ← operand fuel
    if ← eatsAny binaryMarks then
      let right ← operation fuel
      require (left.isValue && right.isValue)
      return .operation (firstFault [left.fault, right.fault])
    else return left

def operand : Nat → Recognizer Phrase
  | 0 => failure
  | fuel + 1 => do
    if ← eatsAny signMarks then
      let inner ← operand fuel
      require inner.isValue
      return .operation inner.fault
    else if ← eatsKeyword "await" then
      let gap ← gapFault .await
      let inner ← primary fuel
      require inner.isValue
      return .operation (firstFault [inner.fault, gap])
    else primary fuel

def primary : Nat → Recognizer Phrase
  | 0 => failure
  | fuel + 1 => do
    let first ← atom fuel
    trailers fuel first

def trailers : Nat → Phrase → Recognizer Phrase
  | 0, _ => failure
  | fuel + 1, owner => do
    if ← eats "." then
      require owner.isValue
      let called ← name
      trailers fuel (.member (firstFault [owner.fault, nameFault called]))
    else if ← eats "(" then
      require owner.isValue
      let passed ← arguments fuel .positional true
      trailers fuel (.operation (firstFault [owner.fault, argumentsFault passed]))
    else if ← eats "[" then
      require owner.isValue
      let fault ← slices fuel
      trailers fuel (.member (firstFault [owner.fault, fault]))
    else return owner

def atom : Nat → Recognizer Phrase
  | 0 => failure
  | fuel + 1 => do
    match (← get).head? with
    | none => failure
    | some token =>
      if token.isName then return .ofName (← name)
      else if ← eatsAny constants then return .operation none
      else if ← eats "(" then group fuel
      else if ← eats "[" then listing fuel
      else if ← eats "\x7b" then braces fuel
      else if ← eats "..." then return .operation none
      else
        match token.kind with
        | .number _ => do
          let _ ← number
          return .operation none
        | .string | .opening _ => do
          let pieces ← strings fuel
          return .operation (rowFault pieces)
        | _ => failure

def strings : Nat → Recognizer (List StringPiece)
  | 0 => failure
  | fuel + 1 => do
    match (← get).head?.map Token.kind with
    | some .string => do
      let token ← eatKind .string
      let rest ← strings fuel
      return ⟨isByteString token.text, false, none⟩ :: rest
    | some (.opening template) => do
      let _ ← eatKind (.opening template)
      let fault ← parts fuel template
      let _ ← eatKind (.closing template)
      let rest ← strings fuel
      return ⟨false, template == .deferred, fault⟩ :: rest
    | _ => return []

def parts : Nat → Template → Recognizer (Option Fault)
  | 0, _ => failure
  | fuel + 1, template => do
    if ← seesKind (.literal template) then
      let _ ← eatKind (.literal template)
      parts fuel template
    else if ← eats "\x7b" then
      let fault ← field fuel template
      let rest ← parts fuel template
      return firstFault [fault, rest]
    else return none

def field : Nat → Template → Recognizer (Option Fault)
  | 0, _ => failure
  | fuel + 1, template => do
    let value ←
      if ← sees "yield" then yielding fuel
      else do
        let first ← starItem fuel
        if template = .formatted && (← seesClause) then
          require first.phrase.isValue
          let fault ← clauses fuel
          pure (firstFault [first.phrase.fault, fault])
        else do
          let items ← rowBehind fuel first
          require (areValues items)
          pure (itemsFault items)
    let _ ← eats "="
    if ← eats "!" then require (← eatsAny ["s", "r", "a"])
    let format ← if ← eats ":" then parts fuel template else pure none
    eat "\x7d"
    return firstFault [value, format]

def yielding : Nat → Recognizer (Option Fault)
  | 0 => failure
  | fuel + 1 => do
    eat "yield"
    if ← eats "from" then
      let gap ← gapFault (.keyword "from")
      let source ← expression fuel
      return firstFault [source.fault, gap]
    else
      let gap ← gapFault (.keyword "yield")
      let value ← values fuel <|> pure none
      return firstFault [value, gap]

def named : Nat → Recognizer Phrase
  | 0 => failure
  | fuel + 1 => do
    if ← seesNameThen ":=" then
      let target ← name
      eat ":="
      let value ← expression fuel
      return .compound (firstFault [nameFault target, value.fault])
    else
      let found ← phrase fuel
      require !(← sees ":=")
      return found

def item : Nat → Recognizer Item
  | 0 => failure
  | fuel + 1 => do
    if ← eats "*" then return ⟨true, ← operation fuel⟩
    else return ⟨false, ← named fuel⟩

def items : Nat → (close : String) → Recognizer (List Item)
  | 0, _ => failure
  | fuel + 1, close => do
    if ← sees close then return []
    else
      let first ← item fuel
      if ← eats "," then return first :: (← items fuel close)
      else return [first]

def starItem : Nat → Recognizer Item
  | 0 => failure
  | fuel + 1 => do
    if ← eats "*" then return ⟨true, ← operation fuel⟩
    else return ⟨false, ← phrase fuel⟩

def rowBehind : Nat → Item → Recognizer (List Item)
  | 0, _ => failure
  | fuel + 1, first => do
    if ← eats "," then
      let rest ← (do rowBehind fuel (← starItem fuel)) <|> pure []
      return first :: rest
    else return [first]

def values : Nat → Recognizer (Option Fault)
  | 0 => failure
  | fuel + 1 => do
    let items ← rowBehind fuel (← starItem fuel)
    require (areValues items)
    return itemsFault items

def group : Nat → Recognizer Phrase
  | 0 => failure
  | fuel + 1 => do
    if ← eats ")" then return .ofItems []
    else if ← sees "yield" then
      let fault ← yielding fuel
      eat ")"
      return .operation fault
    else
      let first ← item fuel
      if ← eats "," then
        let rest ← items fuel ")"
        eat ")"
        return .ofItems (first :: rest)
      else if ← eats ")" then return .ofLoneItem first
      else
        let fault ← comprehension fuel first
        eat ")"
        return .operation fault

def listing : Nat → Recognizer Phrase
  | 0 => failure
  | fuel + 1 => do
    if ← eats "]" then return .ofItems []
    else
      let first ← item fuel
      if ← seesClause then
        let fault ← comprehension fuel first
        eat "]"
        return .operation fault
      else
        let rest ← if ← eats "," then items fuel "]" else pure []
        eat "]"
        return .ofItems (first :: rest)

def braces : Nat → Recognizer Phrase
  | 0 => failure
  | fuel + 1 => do
    if ← eats "\x7d" then return .operation none
    else if ← sees "**" then dictionary fuel (← entry fuel)
    else if (← get).head?.any (·.text == ['*']) then setDisplay fuel (← item fuel)
    else if ← seesNameThen ":=" then setDisplay fuel (← item fuel)
    else
      let first ← phrase fuel
      if ← eats ":" then
        let value ← expression fuel
        require first.isValue
        dictionary fuel (firstFault [first.fault, value.fault])
      else
        require !(← sees ":=")
        setDisplay fuel ⟨false, first⟩

def dictionary : Nat → (first : Option Fault) → Recognizer Phrase
  | 0, _ => failure
  | fuel + 1, first => do
    let rest ←
      if ← seesClause then clauses fuel
      else if ← eats "," then entries fuel
      else pure none
    eat "\x7d"
    return .operation (firstFault [first, rest])

def setDisplay : Nat → (first : Item) → Recognizer Phrase
  | 0, _ => failure
  | fuel + 1, first => do
    if ← seesClause then
      let fault ← comprehension fuel first
      eat "\x7d"
      return .operation fault
    else
      let rest ← if ← eats "," then items fuel "\x7d" else pure []
      eat "\x7d"
      require (areValues (first :: rest))
      return .operation (itemsFault (first :: rest))

def entry : Nat → Recognizer (Option Fault)
  | 0 => failure
  | fuel + 1 => do
    if ← eats "**" then
      let mapping ← operation fuel
      require mapping.isValue
      return mapping.fault
    else
      let key ← expression fuel
      eat ":"
      let value ← expression fuel
      return firstFault [key.fault, value.fault]

def entries : Nat → Recognizer (Option Fault)
  | 0 => failure
  | fuel + 1 => do
    if ← sees "\x7d" then return none
    else
      let first ← entry fuel
      if ← eats "," then return firstFault [first, ← entries fuel]
      else return first

def slices : Nat → Recognizer (Option Fault)
  | 0 => failure
  | fuel + 1 => do
    let first ← slicePart fuel
    if ← eats "," then
      if ← eats "]" then return first
      else return firstFault [first, ← slices fuel]
    else
      eat "]"
      return first

def slicePart : Nat → Recognizer (Option Fault)
  | 0 => failure
  | fuel + 1 => do
    if ← eats "*" then
      let starred ← expression fuel
      return starred.fault
    else if ← seesNameThen ":=" then
      let index ← named fuel
      return index.fault
    else
      let lower ← bound fuel
      if ← eats ":" then
        let upper ← bound fuel
        let step ← if ← eats ":" then bound fuel else pure none
        return firstFault [lower.bind (·.fault), upper.bind (·.fault), step.bind (·.fault)]
      else
        require lower.isSome
        return lower.bind (·.fault)

def bound : Nat → Recognizer (Option Phrase)
  | 0 => failure
  | fuel + 1 => do
    if (← get).head?.any fun token => [[':'], [','], [']']].contains token.text then return none
    else return some (← expression fuel)

def arguments : Nat → ArgumentPhase → (first : Bool) → Recognizer (List Argument)
  | 0, _, _ => failure
  | fuel + 1, phase, first => do
    if ← eats ")" then return []
    else if ← eats "**" then
      let mapping ← expression fuel
      moreArguments fuel .mapping ⟨true, mapping.fault⟩
    else if ← eats "*" then
      require (phase ≠ .mapping)
      let starred ← expression fuel
      if first && (← seesClause) then
        require (starred.form ≠ .compound)
        let fault ← comprehension fuel ⟨true, starred⟩
        eat ")"
        return [⟨false, fault⟩]
      else moreArguments fuel phase ⟨false, starred.fault⟩
    else if ← seesNameThen "=" then
      let keyword ← name
      eat "="
      let value ← expression fuel
      let phase := if phase = .positional then .named else phase
      moreArguments fuel phase ⟨true, firstFault [value.fault, nameFault keyword]⟩
    else
      require (phase = .positional)
      let value ← named fuel
      require value.isValue
      if first && (← seesClause) then
        let fault ← comprehension fuel ⟨false, value⟩
        eat ")"
        return [⟨false, fault⟩]
      else moreArguments fuel phase ⟨false, value.fault⟩

def moreArguments : Nat → ArgumentPhase → Argument → Recognizer (List Argument)
  | 0, _, _ => failure
  | fuel + 1, phase, argument => do
    if ← eats "," then return argument :: (← arguments fuel phase false)
    else
      eat ")"
      return [argument]

def comprehension : Nat → Item → Recognizer (Option Fault)
  | 0, _ => failure
  | fuel + 1, element => do
    require element.phrase.isValue
    let fault ← clauses fuel
    return firstFault [element.phrase.fault, fault]

def clauses : Nat → Recognizer (Option Fault)
  | 0 => failure
  | fuel + 1 => do
    let _ ← eatsKeyword "async"
    eat "for"
    let targetGap ← gapFault (.keyword "for")
    let target ← targets fuel
    eat "in"
    let sourceGap ← gapFault (.keyword "in")
    let source ← disjunction fuel
    require source.isValue
    let tests ← conditions fuel
    let inner ← if ← seesClause then clauses fuel else pure none
    return firstFault [target, source.fault, tests, inner, targetGap, sourceGap]

def conditions : Nat → Recognizer (Option Fault)
  | 0 => failure
  | fuel + 1 => do
    if ← eats "if" then
      let gap ← gapFault (.keyword "if")
      let test ← disjunction fuel
      require test.isValue
      return firstFault [test.fault, gap, ← conditions fuel]
    else return none

def targets : Nat → Recognizer (Option Fault)
  | 0 => failure
  | fuel + 1 => do
    let first ← target fuel
    if ← eats "," then
      let rest ← targets fuel <|> pure none
      return firstFault [first, rest]
    else return first

def target : Nat → Recognizer (Option Fault)
  | 0 => failure
  | fuel + 1 => do
    let _ ← eats "*"
    let found ← primary fuel
    require found.isTarget
    return found.fault

def parameters : Nat → (annotated : Bool) → (close : String) → ParameterPhase →
    Recognizer (List ParameterEntry)
  | 0, _, _, _ => failure
  | fuel + 1, annotated, close, phase => do
    if ← sees close then
      require !phase.waiting
      return []
    else if ← eats "/" then
      require (phase.started && !phase.slashed && !phase.starred)
      return .slash :: (← moreParameters fuel annotated close { phase with slashed := true })
    else if ← eats "**" then
      require !phase.waiting
      let found ← parameter fuel annotated false
      let _ ← eats ","
      require (← sees close)
      return [.mapping found]
    else if ← eats "*" then
      require !phase.starred
      if ← sees "," then
        let phase := { phase with starred := true, waiting := true }
        return .bareStar :: (← moreParameters fuel annotated close phase)
      else
        let found ← parameter fuel annotated true
        return .star found :: (← moreParameters fuel annotated close { phase with starred := true })
    else
      let found ← parameter fuel annotated false
      let default? ← if ← eats "=" then some <$> expression fuel else pure none
      require (default?.isSome || !phase.defaulted || phase.starred)
      let phase := { phase with
        started := true, waiting := false
        defaulted := phase.defaulted || (default?.isSome && !phase.starred) }
      let found := { found with fault := firstFault [found.fault, default?.bind (·.fault)] }
      return .plain found :: (← moreParameters fuel annotated close phase)

def moreParameters : Nat → (annotated : Bool) → (close : String) → ParameterPhase →
    Recognizer (List ParameterEntry)
  | 0, _, _, _ => failure
  | fuel + 1, annotated, close, phase => do
    if ← eats "," then parameters fuel annotated close phase
    else
      require ((← sees close) && !phase.waiting)
      return []

def parameter : Nat → (annotated starred : Bool) → Recognizer Parameter
  | 0, _, _ => failure
  | fuel + 1, annotated, starred => do
    let called ← name
    if annotated && (← sees ":") then
      eat ":"
      let item ← if starred then starItem fuel else pure ⟨false, ← expression fuel⟩
      require item.phrase.isValue
      return ⟨called, firstFault [nameFault called, item.phrase.fault]⟩
    else return ⟨called, nameFault called⟩

end

end LineProbe.Signature
