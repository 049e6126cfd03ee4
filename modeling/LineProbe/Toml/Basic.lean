import LineProbe.Number.Integer
import LineProbe.Value.Basic

/-!
# TOML: strings and keys

The lexical parts of TOML 1.0.
-/

namespace LineProbe.Toml

inductive ReadError where
  | malformed
  | digits (cause : DigitLimitError)
deriving DecidableEq, Repr

def prepend (front : Text) (reading : Except ReadError (Text × Text)) : Except ReadError (Text × Text) :=
  reading.map fun (text, rest) => (front ++ text, rest)

/-! ## Blanks and comments -/

def isBlank (c : Char) : Bool :=
  c = ' ' || c = '\t'

def isIllegal (c : Char) : Bool :=
  (c.toNat < 0x20 || c.toNat = 0x7f) && c ≠ '\t'

def isIllegalInLines (c : Char) : Bool :=
  isIllegal c && c ≠ '\n'

def afterBlanks (text : Text) : Text :=
  text.dropWhile isBlank

def afterComment : Text → Except ReadError Text
  | '#' :: rest =>
    if (rest.takeWhile (· ≠ '\n')).any isIllegal then .error .malformed
    else .ok (rest.dropWhile (· ≠ '\n'))
  | text => .ok text

def afterFiller (inComment : Bool) : Text → Except ReadError Text
  | [] => .ok []
  | c :: rest =>
    if c = '\n' then afterFiller false rest
    else if inComment then if isIllegal c then .error .malformed else afterFiller true rest
    else if isBlank c then afterFiller false rest
    else if c = '#' then afterFiller true rest
    else .ok (c :: rest)

/-! ## Strings without escapes -/

def readLiteral : Text → Except ReadError (Text × Text)
  | [] => .error .malformed
  | '\'' :: rest => .ok ([], rest)
  | c :: rest => if isIllegal c then .error .malformed else prepend [c] (readLiteral rest)

def readLiteralLines : Text → Except ReadError (Text × Text)
  | [] => .error .malformed
  | '\'' :: '\'' :: '\'' :: rest => .ok ([], rest)
  | c :: rest => if isIllegalInLines c then .error .malformed else prepend [c] (readLiteralLines rest)

/-! ## Strings with escapes -/

inductive StringMode where
  | plain
  | escape
  | lineEnd
  | dropping
  | code (left value : Nat)
deriving DecidableEq, Repr

def StringMode.readsQuotes : StringMode → Bool
  | .plain | .dropping => true
  | _ => false

def plainStep (manyLines : Bool) (c : Char) : Option (Text × StringMode) :=
  if c = '\\' then some ([], .escape)
  else if if manyLines then isIllegalInLines c else isIllegal c then none
  else some ([c], .plain)

def escaped? (c : Char) : Option Char :=
  if c = 'b' then some '\x08'
  else if c = 't' then some '\t'
  else if c = 'n' then some '\n'
  else if c = 'f' then some '\x0c'
  else if c = 'r' then some '\r'
  else if c = '"' || c = '\\' then some c
  else none

def escapeStep (manyLines : Bool) (c : Char) : Option (Text × StringMode) :=
  if manyLines && c = '\n' then some ([], .dropping)
  else if manyLines && isBlank c then some ([], .lineEnd)
  else if c = 'u' then some ([], .code 4 0)
  else if c = 'U' then some ([], .code 8 0)
  else (escaped? c).map fun c => ([c], .plain)

def codeStep (left value : Nat) (c : Char) : Option (Text × StringMode) := do
  let value := 16 * value + (← Text.hexValue? c)
  if left = 1 then
    if value.isValidChar then some ([Char.ofNat value], .plain) else none
  else some ([], .code (left - 1) value)

def stringStep (manyLines : Bool) : StringMode → Char → Option (Text × StringMode)
  | .plain, c => plainStep manyLines c
  | .escape, c => escapeStep manyLines c
  | .lineEnd, c =>
    if c = '\n' then some ([], .dropping) else if isBlank c then some ([], .lineEnd) else none
  | .dropping, c => if c = '\n' || isBlank c then some ([], .dropping) else plainStep manyLines c
  | .code left value, c => codeStep left value c

def readBasic (manyLines : Bool) : StringMode → Text → Except ReadError (Text × Text)
  | _, [] => .error .malformed
  | mode, c :: rest =>
    if mode.readsQuotes && c = '"' && (!manyLines || Text.startsWith rest "\"\"") then
      .ok ([], if manyLines then rest.drop 2 else rest)
    else
      match stringStep manyLines mode c with
      | none => .error .malformed
      | some (out, mode) => prepend out (readBasic manyLines mode rest)

def readLines (quote : Char) (text : Text) : Except ReadError (Text × Text) := do
  let text := if text.head? = some '\n' then text.drop 1 else text
  let (value, rest) ← if quote = '"' then readBasic true .plain text else readLiteralLines text
  let more := (rest.take 2).takeWhile (· = quote)
  return (value ++ more, rest.drop more.length)

/-! ## Keys -/

def isBareKeyChar (c : Char) : Bool :=
  c.isAlphanum || c = '-' || c = '_'

def readKeyPart : Text → Except ReadError (Text × Text)
  | '\'' :: rest => readLiteral rest
  | '"' :: rest => readBasic false .plain rest
  | text =>
    let part := text.takeWhile isBareKeyChar
    if part = [] then .error .malformed else .ok (part, text.drop part.length)

abbrev Path := List Text

def readKey : Nat → Text → Except ReadError (Path × Text)
  | 0, _ => .error .malformed
  | fuel + 1, text => do
    let (part, rest) ← readKeyPart text
    match afterBlanks rest with
    | '.' :: rest =>
      let (parts, rest) ← readKey fuel (afterBlanks rest)
      return (part :: parts, rest)
    | rest => return ([part], rest)

def readAssigned (text : Text) : Except ReadError (Path × Text) := do
  let (key, rest) ← readKey text.length text
  match rest with
  | '=' :: rest => return (key, afterBlanks rest)
  | _ => .error .malformed

end LineProbe.Toml
