import LineProbe.Toml.Number

/-!
# TOML: values and documents

A document is read one statement after the other.
-/

namespace LineProbe.Toml

abbrev Entries := List (Text × Value)

/-! ## Tables within tables -/

def changeAt (throughLists : Bool) (change : Entries → Option Entries) :
    Path → Entries → Option Entries
  | [], entries => change entries
  | key :: path, entries =>
    match Value.lookup key entries with
    | none => (changeAt throughLists change path []).map fun inner =>
        Value.insert key (.table inner) entries
    | some (.table inner) => (changeAt throughLists change path inner).map fun inner =>
        Value.insert key (.table inner) entries
    | some (.list items) =>
      match throughLists, items.getLast? with
      | true, some (.table inner) => (changeAt throughLists change path inner).map fun inner =>
          Value.insert key (.list (items.dropLast ++ [.table inner])) entries
      | _, _ => none
    | some _ => none

def addNew (key : Text) (value : Value) (entries : Entries) : Option Entries :=
  if (Value.lookup key entries).isSome then none else some (entries ++ [(key, value)])

def addTable (key : Text) (entries : Entries) : Option Entries :=
  match Value.lookup key entries with
  | none => some (entries ++ [(key, .list [.table []])])
  | some (.list items) => some (Value.insert key (.list (items ++ [.table []])) entries)
  | some _ => none

def orMalformed {α : Type} : Option α → Except ReadError α
  | some a => .ok a
  | none => .error .malformed

def isUnder (roots : List Path) (path : Path) : Bool :=
  roots.any (·.isPrefixOf path)

def isNest : Value → Bool
  | .list _ | .table _ => true
  | _ => false

/-! ## Values -/

mutual

def readValue : Nat → Text → Except ReadError (Value × Text)
  | 0, _ => .error .malformed
  | fuel + 1, text =>
    match text with
    | '"' :: '"' :: '"' :: rest => (readLines '"' rest).map fun (s, rest) => (.str s, rest)
    | '"' :: rest => (readBasic false .plain rest).map fun (s, rest) => (.str s, rest)
    | '\'' :: '\'' :: '\'' :: rest => (readLines '\'' rest).map fun (s, rest) => (.str s, rest)
    | '\'' :: rest => (readLiteral rest).map fun (s, rest) => (.str s, rest)
    | 't' :: 'r' :: 'u' :: 'e' :: rest => .ok (.bool true, rest)
    | 'f' :: 'a' :: 'l' :: 's' :: 'e' :: rest => .ok (.bool false, rest)
    | '[' :: rest => (readItems fuel rest).map fun (items, rest) => (.list items, rest)
    | '\x7b' :: rest =>
      match afterBlanks rest with
      | '\x7d' :: rest => .ok (.table [], rest)
      | rest => (readEntries fuel [] [] rest).map fun (entries, rest) => (.table entries, rest)
    | text =>
      match (calendar? text).or (number? text) with
      | some reading => reading
      | none => orMalformed (special? text)

def readItems : Nat → Text → Except ReadError (List Value × Text)
  | 0, _ => .error .malformed
  | fuel + 1, text => do
    match ← afterFiller false text with
    | ']' :: rest => return ([], rest)
    | text =>
      let (item, rest) ← readValue fuel text
      match ← afterFiller false rest with
      | ']' :: rest => return ([item], rest)
      | ',' :: rest =>
        let (items, rest) ← readItems fuel rest
        return (item :: items, rest)
      | _ => .error .malformed

def readEntries : Nat → Entries → List Path → Text → Except ReadError (Entries × Text)
  | 0, _, _, _ => .error .malformed
  | fuel + 1, entries, closed, text => do
    let (key, rest) ← readAssigned text
    let (value, rest) ← readValue fuel rest
    if isUnder closed key then .error .malformed
    else
      let add := addNew (key.getLastD []) value
      let entries ← orMalformed (changeAt false add key.dropLast entries)
      match afterBlanks rest with
      | '\x7d' :: rest => return (entries, rest)
      | ',' :: rest =>
        let closed := if isNest value then key :: closed else closed
        readEntries fuel entries closed (afterBlanks rest)
      | _ => .error .malformed

end

/-! ## Statements -/

structure Document where
  root : Entries
  header : Path
  declared : List Path
  dotted : List Path
  closed : List Path
deriving Repr

namespace Document

def empty : Document :=
  ⟨[], [], [], [], []⟩

def settled (document : Document) : Document :=
  { document with declared := document.dotted ++ document.declared, dotted := [] }

def readTable (document : Document) (text : Text) : Except ReadError (Document × Text) := do
  let (key, rest) ← readKey text.length (afterBlanks text)
  if document.declared.contains key || isUnder document.closed key then .error .malformed
  else
    let root ← orMalformed (changeAt true some key document.root)
    match rest with
    | ']' :: rest =>
      return ({ document with root, header := key, declared := key :: document.declared }, rest)
    | _ => .error .malformed

def readListTable (document : Document) (text : Text) : Except ReadError (Document × Text) := do
  let (key, rest) ← readKey text.length (afterBlanks text)
  if isUnder document.closed key then .error .malformed
  else
    let declared := document.declared.filter fun path => !key.isPrefixOf path
    let closed := document.closed.filter fun path => !key.isPrefixOf path
    let add := addTable (key.getLastD [])
    let root ← orMalformed (changeAt true add key.dropLast document.root)
    match rest with
    | ']' :: ']' :: rest =>
      return ({ document with root, header := key, declared := key :: declared, closed }, rest)
    | _ => .error .malformed

def wayTo (header key : Path) : List Path :=
  ((List.range key.length).drop 1).map fun parts => header ++ key.take parts

def readPair (document : Document) (text : Text) : Except ReadError (Document × Text) := do
  let (key, rest) ← readAssigned text
  let (value, rest) ← readValue (2 * rest.length + 2) rest
  let way := wayTo document.header key
  let table := document.header ++ key.dropLast
  if way.any document.declared.contains || isUnder document.closed table then .error .malformed
  else
    let add := addNew (key.getLastD []) value
    let root ← orMalformed (changeAt true add table document.root)
    let closed :=
      if isNest value then (document.header ++ key) :: document.closed else document.closed
    return ({ document with root, closed, dotted := way ++ document.dotted }, rest)

def readStatement (document : Document) : Text → Except ReadError (Document × Text)
  | '[' :: '[' :: rest => document.settled.readListTable rest
  | '[' :: rest => document.settled.readTable rest
  | '#' :: rest => .ok (document, '#' :: rest)
  | text => document.readPair text

def readStatements : Nat → Document → Text → Except ReadError Document
  | 0, _, _ => .error .malformed
  | fuel + 1, document, text =>
    match afterBlanks text with
    | [] => .ok document
    | '\n' :: rest => readStatements fuel document rest
    | text => do
      let (document, rest) ← document.readStatement text
      match ← afterComment (afterBlanks rest) with
      | [] => return document
      | '\n' :: rest => readStatements fuel document rest
      | _ => .error .malformed

end Document

def read (text : Text) : Except ReadError Entries :=
  (Document.readStatements (text.length + 1) .empty text).map Document.root

end LineProbe.Toml
