import LineProbe.Text.Basic

/-!
# Constructs

What the code of a logical statement can be, with the parts that instrumentation needs.
-/

namespace LineProbe

inductive Construct where
  | decorator
  | assignment (target : Text) (valueStart : Nat)
  | augmented (target operator : Text) (valueStart : Nat)
  | annotated (target : Text) (valueStart : Nat)
  | printCall (openParen closeParen : Nat)
  | forHeader (head iterable : Text)
  | returning (value : Text)
  | defHeader (name : Text) (params : List Text)
  | blockHeader (keyword : Text)
  | inlineCompound (colon : Nat)
  | ignorable (keyword : Text)
  | plain
deriving DecidableEq, Repr

namespace Construct

def branchKeywords : List Text :=
  ["if", "elif", "else", "while", "for"]

def compoundKeywords : List Text :=
  ["if", "elif", "else", "while", "for", "with", "try", "except", "finally", "def", "class", "async",
   "match", "case"]

def unprobedKeywords : List Text :=
  ["break", "continue", "pass", "except", "finally", "raise", "else", "elif", "case"]

def ignorableKeywords : List Text :=
  ["break", "continue", "pass", "except", "finally", "raise"]

def clauseKeywords : List Text :=
  ["elif", "else", "except", "finally", "case"]

def isBranch (keyword : Text) : Bool :=
  branchKeywords.contains keyword

def isProbed (keyword : Text) : Bool :=
  !unprobedKeywords.contains keyword

def opensBlock : Construct → Bool
  | .forHeader .. | .defHeader .. | .blockHeader .. => true
  | _ => false

end Construct

end LineProbe
