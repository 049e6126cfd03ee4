import LineProbe.Text.Quoted

/-!
# Faults of a definition

A definition can follow the grammar and still be refused: a name must be an identifier by the older tables too,
strings that stand side by side must fit together, and a word is set off from a number behind it.
-/

namespace LineProbe.Signature

inductive Gap where
  | negation
  | junction
  | comparison
  | await
  | keyword (word : String)
  | statement (word : String)
  | management
deriving DecidableEq, Repr

def Gap.message : Gap → Text
  | .negation => "Must have at least one space after not operator."
  | .junction => "Must have at least one space around boolean operator."
  | .comparison => "Must have at least one space around comparison operator."
  | .await => "Must have at least one space after await"
  | .keyword word => "Must have at least one space after '" ++ word.toList ++ "' keyword."
  | .statement word => "Must have at least one space after '" ++ word.toList ++ "'."
  | .management => "Must have at least one space after with keyword."

/-- Why a definition that follows the grammar is refused. -/
inductive Fault where
  | badName (name : Text)
  | mixedStrings
  | deferredLast
  | noGap (gap : Gap)
  | positionalLast
  | bareHandlerFirst
deriving DecidableEq, Repr

def Fault.message : Fault → Text
  | .badName name => "Name " ++ Text.quoted name ++ " is not a valid identifier."
  | .mixedStrings => "Cannot concatenate string and bytes."
  | .deferredLast => "Logic error!"
  | .noGap gap => gap.message
  | .positionalLast => "Keywords must be arguments with keywords."
  | .bareHandlerFirst => "The bare except: handler must be the last one."

def firstFault (faults : List (Option Fault)) : Option Fault :=
  faults.findSome? id

def isIdentifier : Text → Bool
  | [] => false
  | c :: rest => Text.isIdentifierStart c && rest.all Text.isIdentifierRest

def nameFault (name : Text) : Option Fault :=
  if isIdentifier name then none else some (.badName name)

structure StringPiece where
  bytes : Bool
  deferred : Bool
  fault : Option Fault
deriving DecidableEq, Repr

def rowFault : List StringPiece → Option Fault
  | [] => none
  | [piece] => piece.fault
  | piece :: next :: rest =>
    firstFault [piece.fault, rowFault (next :: rest),
      if rest.isEmpty && next.deferred then some .deferredLast
      else if piece.bytes != next.bytes then some .mixedStrings
      else none]

end LineProbe.Signature
