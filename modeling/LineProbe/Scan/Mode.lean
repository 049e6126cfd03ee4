import LineProbe.Text.Basic

/-!
# Reading modes

A script is read one character at a time.
-/

namespace LineProbe

inductive Quote where
  | single
  | double
deriving DecidableEq, Repr

def Quote.char : Quote → Char
  | .single => '\''
  | .double => '"'

/-- The string that is open at the end of a line, if any. -/
inductive Carry where
  | closed
  | short (quote : Quote)
  | long (quote : Quote)
deriving DecidableEq, Repr

inductive Mode where
  | code
  | comment
  | quoteOne (quote : Quote)
  | quoteTwo (quote : Quote)
  | short (quote : Quote)
  | shortEscape (quote : Quote)
  | long (quote : Quote)
  | longOne (quote : Quote)
  | longTwo (quote : Quote)
  | longEscape (quote : Quote)
deriving DecidableEq, Repr

def Carry.mode : Carry → Mode
  | .closed => .code
  | .short quote => .short quote
  | .long quote => .long quote

namespace Mode

def afterCode (c : Char) : Mode :=
  if c = '#' then .comment
  else if c = '\'' then .quoteOne .single
  else if c = '"' then .quoteOne .double
  else .code

def afterShort (quote : Quote) (c : Char) : Mode :=
  if c = '\\' then .shortEscape quote else if c = quote.char then .code else .short quote

def next : Mode → Char → Mode
  | .code, c => afterCode c
  | .comment, c => if c = '\n' then .code else .comment
  | .quoteOne quote, c => if c = quote.char then .quoteTwo quote else afterShort quote c
  | .quoteTwo quote, c => if c = quote.char then .long quote else afterCode c
  | .short quote, c => afterShort quote c
  | .shortEscape quote, _ => .short quote
  | .long quote, c =>
    if c = '\\' then .longEscape quote else if c = quote.char then .longOne quote else .long quote
  | .longOne quote, c =>
    if c = '\\' then .longEscape quote else if c = quote.char then .longTwo quote else .long quote
  | .longTwo quote, c =>
    if c = '\\' then .longEscape quote else if c = quote.char then .code else .long quote
  | .longEscape quote, _ => .long quote

def readsCode : Mode → Char → Bool
  | .code, c | .quoteTwo _, c => c ≠ '#' && c ≠ '\'' && c ≠ '"'
  | .comment, c => c = '\n'
  | _, _ => false

def startsComment : Mode → Char → Bool
  | .code, c | .quoteTwo _, c => c = '#'
  | _, _ => false

def carry : Mode → Carry
  | .code | .comment | .quoteTwo _ => .closed
  | .quoteOne quote | .short quote | .shortEscape quote => .short quote
  | .long quote | .longOne quote | .longTwo quote | .longEscape quote => .long quote

def run (mode : Mode) (text : Text) : Mode :=
  text.foldl next mode

@[simp] theorem run_nil (mode : Mode) : mode.run [] = mode := rfl

@[simp] theorem run_cons (mode : Mode) (c : Char) (text : Text) :
    mode.run (c :: text) = (mode.next c).run text := rfl

@[simp] theorem run_append (mode : Mode) (first last : Text) :
    mode.run (first ++ last) = (mode.run first).run last :=
  List.foldl_append

end Mode

/-! ## Names of carried strings -/

def Carry.name : Carry → Text
  | .closed => "none"
  | .short .single => "single"
  | .short .double => "double"
  | .long .single => "triple_single"
  | .long .double => "triple_double"

def Carry.all : List Carry :=
  [.closed, .short .single, .short .double, .long .single, .long .double]

def Carry.ofName? (name : Text) : Option Carry :=
  Carry.all.find? fun carry => carry.name == name

@[simp] theorem Carry.ofName?_name (carry : Carry) : Carry.ofName? carry.name = some carry := by
  cases carry with
  | closed => rfl
  | short quote => cases quote <;> rfl
  | long quote => cases quote <;> rfl

@[simp] theorem Carry.carry_mode (carry : Carry) : carry.mode.carry = carry := by
  cases carry <;> rfl

end LineProbe
