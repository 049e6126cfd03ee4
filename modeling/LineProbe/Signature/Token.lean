import LineProbe.Scan.Mode
import LineProbe.Signature.Numeral

/-!
# Tokens

The words, numbers, strings and marks of the script language, and the tokens that stand for line ends and for changes
of indentation.

A part of the parser in `Signature/Body`.
-/

namespace LineProbe.Signature

open Text

inductive Template where
  | formatted
  | deferred
deriving DecidableEq, Repr

inductive TokenKind where
  | word
  | number (glued : Bool)
  | string
  | mark
  | opening (template : Template)
  | literal (template : Template)
  | closing (template : Template)
  | newline
  | indent
  | dedent
deriving DecidableEq, Repr

structure Token where
  kind : TokenKind
  text : Text
deriving DecidableEq, Repr

structure Delimiter where
  template : Template
  quote : Quote
  long : Bool
  raw : Bool
deriving DecidableEq, Repr

inductive Frame where
  | bracket (close : Char)
  | body (delimiter : Delimiter)
  | field (delimiter : Delimiter)
  | format (delimiter : Delimiter)
deriving DecidableEq, Repr

/-! ## Words -/

def isWordPart (c : Char) : Bool :=
  c == '_' || c.isAlphanum || 0x80 ≤ c.toNat

def isAnyIdentifier : Text → Bool
  | [] => false
  | c :: rest => isAnyIdentifierStart c && rest.all isAnyIdentifierRest

def stringMarks : List Text :=
  ["u", "b", "r", "br", "rb"]

def templateMarks : List Text :=
  ["f", "t", "fr", "rf", "rt"]

/-! ## Strings -/

def afterShortString? (quote : Quote) : Text → Option Text
  | [] => none
  | '\\' :: _ :: rest => afterShortString? quote rest
  | c :: rest =>
    if c = quote.char then some rest
    else if c = '\n' then none
    else afterShortString? quote rest

def afterLongString? (quote : Quote) : Text → Option Text
  | [] => none
  | '\\' :: _ :: rest => afterLongString? quote rest
  | c :: rest =>
    if startsWith (c :: rest) [quote.char, quote.char, quote.char] then some (rest.drop 2)
    else afterLongString? quote rest

def isLongQuote (quote : Quote) (text : Text) : Bool :=
  startsWith text [quote.char, quote.char, quote.char]

def afterString? (quote : Quote) (text : Text) : Option Text :=
  if isLongQuote quote text then afterLongString? quote (text.drop 3)
  else afterShortString? quote (text.drop 1)

def quoteAt? : Text → Option Quote
  | '\'' :: _ => some .single
  | '"' :: _ => some .double
  | _ => none

def Delimiter.size (delimiter : Delimiter) : Nat :=
  if delimiter.long then 3 else 1

def Delimiter.closesAt (delimiter : Delimiter) (text : Text) : Bool :=
  startsWith text (List.replicate delimiter.size delimiter.quote.char)

def afterLiteral? (delimiter : Delimiter) (inFormat : Bool) : (inName : Bool) → Text → Option Text
  | _, [] => none
  | inName, c :: rest =>
    if c = '\x7b' then
      match rest with
      | '\x7b' :: behind =>
        if inFormat then some (c :: rest) else afterLiteral? delimiter inFormat inName behind
      | _ => some (c :: rest)
    else if c = '\x7d' then
      if inName then afterLiteral? delimiter inFormat false rest
      else if inFormat then some (c :: rest)
      else
        match rest with
        | '\x7d' :: behind => afterLiteral? delimiter inFormat inName behind
        | _ => none
    else if c = '\\' then
      match rest with
      | [] => none
      | 'N' :: '\x7b' :: behind =>
        if delimiter.raw || inFormat then afterLiteral? delimiter inFormat inName ('\x7b' :: behind)
        else afterLiteral? delimiter inFormat true behind
      | d :: behind =>
        let skipped := if delimiter.raw then d = '\'' || d = '"' || d = '\\'
          else d ≠ '\x7b' && d ≠ '\x7d'
        if skipped then afterLiteral? delimiter inFormat inName behind
        else afterLiteral? delimiter inFormat inName (d :: behind)
    else if delimiter.closesAt (c :: rest) then some (c :: rest)
    else if c = '\n' && !delimiter.long then none
    else afterLiteral? delimiter inFormat inName rest

/-! ## Marks -/

def marks : List Text :=
  List.map String.toList
    ["**=", "//=", ">>=", "<<=", "...", "**", "//", ">>", "<<", "->", ":=", "!=", "==", "<=", ">=",
     "<>", "+=", "-=", "*=", "/=", "%=", "&=", "|=", "^=", "@=", "+", "-", "*", "/", "%", "&", "|",
     "^", "~", "<", ">", "(", ")", "[", "]", "\x7b", "\x7d", "@", ",", ":", ";", ".", "=", "!"]

def closerOf? (c : Char) : Option Char :=
  if c = '(' then some ')' else if c = '[' then some ']' else if c = '\x7b' then some '\x7d' else none

def framesAfterMark? (frames : List Frame) (text : Text) : Option (List Frame) :=
  match text with
  | [c] =>
    match closerOf? c with
    | some close => some (.bracket close :: frames)
    | none =>
      if c = ')' || c = ']' || c = '\x7d' then
        match frames with
        | .bracket close :: outer => if close = c then some outer else none
        | .field _ :: outer => if c = '\x7d' then some outer else none
        | _ => none
      else some frames
  | _ => some frames

def markAt? (frames : List Frame) (text : Text) : Option (Text × List Frame) :=
  match frames, text with
  | .field delimiter :: outer, ':' :: _ => some ([':'], .format delimiter :: outer)
  | _, _ => do
    let found ← marks.find? (startsWith text)
    let frames ← framesAfterMark? frames found
    return (found, frames)

/-! ## Indentation -/

def isGap (c : Char) : Bool :=
  c == ' ' || c == '\t' || c == '\x0c'

def widthWith (afterTab : Nat → Nat) (indentation : Text) : Nat :=
  indentation.foldl
    (fun width c => if c = '\t' then afterTab width else if c = '\x0c' then 0 else width + 1) 0

def columns : Text → Nat :=
  widthWith fun width => (width / 8 + 1) * 8

def characters : Text → Nat :=
  widthWith (· + 1)

def maxOpenBlocks : Nat :=
  100

def indentTokens? (blocks : List Text) (indentation : Text) : Option (List Token × List Text) :=
  let inner := blocks.headD []
  if columns inner < columns indentation then
    if characters inner < characters indentation && startsWith indentation inner
        && blocks.length + 1 < maxOpenBlocks then
      some ([⟨.indent, []⟩], indentation :: blocks)
    else none
  else
    let kept := blocks.dropWhile (columns indentation < columns ·)
    let outer := kept.headD []
    if columns outer = columns indentation && characters outer = characters indentation then
      some (List.replicate (blocks.length - kept.length) ⟨.dedent, []⟩, kept)
    else none

/-! ## The tokens of a text -/

structure Position where
  frames : List Frame
  blocks : List Text
  lineStart : Bool
  unmarked : Bool
deriving DecidableEq, Repr

structure Reading where
  tokens : List Token
  position : Position
  rest : Text

def Position.within (position : Position) (frames : List Frame) : Position :=
  { position with frames }

def cut (position : Position) (kind : TokenKind) (text rest : Text) : Reading :=
  ⟨[⟨kind, text.take (text.length - rest.length)⟩], position, rest⟩

def seesFraction : Text → Bool
  | '.' :: c :: _ => c.isDigit
  | _ => false

def readIdentifier? (position : Position) (text rest : Text) : Option Reading :=
  let word := cut position .word text rest
  if seesFraction rest then
    (afterNumber? rest).map fun behind =>
      let number := cut position (.number true) rest behind
      { number with tokens := word.tokens ++ number.tokens }
  else some word

def readWord? (position : Position) (text : Text) : Option Reading :=
  let word := text.takeWhile isWordPart
  let rest := text.dropWhile isWordPart
  let lower := word.map Char.toLower
  let identifier := if isAnyIdentifier word then readIdentifier? position text rest else none
  match quoteAt? rest with
  | none => identifier
  | some quote =>
    if stringMarks.contains lower then (afterString? quote rest).map (cut position .string text)
    else if templateMarks.contains lower then
      let template := if lower.contains 'f' then Template.formatted else .deferred
      let delimiter : Delimiter := ⟨template, quote, isLongQuote quote rest, lower.contains 'r'⟩
      some (cut (position.within (.body delimiter :: position.frames)) (.opening template) text
        (rest.drop delimiter.size))
    else identifier

def readCode? (position : Position) : Text → Option Reading
  | [] => none
  | c :: rest =>
    let text := c :: rest
    if isGap c then some ⟨[], position, rest⟩
    else if c = '#' then some ⟨[], position, rest.dropWhile (· ≠ '\n')⟩
    else if c = '\n' then
      let marked := position.frames.isEmpty && !position.unmarked
      some ⟨if marked then [⟨.newline, ['\n']⟩] else [], { position with lineStart := true }, rest⟩
    else if c = '\\' then
      match rest with
      | '\n' :: d :: behind => some ⟨[], position, d :: behind⟩
      | _ => none
    else if c.isDigit || seesFraction text then
      (afterNumber? text).map (cut position (.number false) text)
    else if isWordPart c then readWord? position text
    else
      match quoteAt? text with
      | some quote => (afterString? quote text).map (cut position .string text)
      | none => (markAt? position.frames text).map fun (found, frames) =>
          cut (position.within frames) .mark text (text.drop found.length)

def readLiteral? (position : Position) (delimiter : Delimiter) (inFormat : Bool)
    (outer : List Frame) (text : Text) : Option Reading := do
  let stop ← afterLiteral? delimiter inFormat false text
  let passed := text.take (text.length - stop.length)
  let before : List Token :=
    if passed.isEmpty then [] else [⟨.literal delimiter.template, passed⟩]
  match stop with
  | '\x7b' :: rest =>
    return ⟨before ++ [⟨.mark, "\x7b"⟩], position.within (.field delimiter :: position.frames), rest⟩
  | '\x7d' :: rest => return ⟨before ++ [⟨.mark, "\x7d"⟩], position.within outer, rest⟩
  | _ =>
    if inFormat then none
    else
      let rest := stop.drop delimiter.size
      return ⟨before ++ [⟨.closing delimiter.template, stop.take delimiter.size⟩],
        position.within outer, rest⟩

def readIndent? (position : Position) (text : Text) : Option Reading :=
  let indentation := text.takeWhile isGap
  let rest := text.dropWhile isGap
  let behind := if rest.head? == some '#' then rest.dropWhile (· ≠ '\n') else rest
  let inside := { position with lineStart := false, unmarked := rest.head? == some '\\' }
  if behind.head? == some '\n' then some ⟨[], position, behind.drop 1⟩
  else if inside.unmarked || !position.frames.isEmpty then some ⟨[], inside, rest⟩
  else do
    let (tokens, blocks) ← indentTokens? position.blocks indentation
    return ⟨tokens, { inside with blocks }, rest⟩

def read? (position : Position) (text : Text) : Option Reading :=
  match position.frames with
  | .body delimiter :: outer => readLiteral? position delimiter false outer text
  | .format delimiter :: outer => readLiteral? position delimiter true outer text
  | _ => if position.lineStart then readIndent? position text else readCode? position text

def tokensFrom? : (steps : Nat) → Position → Text → Option (List Token)
  | _, position, [] =>
    if position.frames.isEmpty then
      some (List.replicate position.blocks.length ⟨.dedent, []⟩)
    else none
  | 0, _, _ => none
  | steps + 1, position, text => do
    let ⟨tokens, position, rest⟩ ← read? position text
    let later ← tokensFrom? steps position rest
    return tokens ++ later

def tokens? (text : Text) : Option (List Token) :=
  let text := unifyLineEnds text
  tokensFrom? (2 * text.length + 1) ⟨[], [], true, false⟩ text

end LineProbe.Signature
