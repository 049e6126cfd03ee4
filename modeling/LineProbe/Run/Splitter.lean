import LineProbe.Result.Basic

/-!
# Splitting output into chunks

A chunk ends at a line end that a tag follows directly.
-/

namespace LineProbe

def splitTagged : Text → List Text
  | [] => [[]]
  | '\r' :: '\n' :: rest =>
    if startsWithTag rest then [] :: splitTagged rest
    else Text.consFirst '\r' (Text.consFirst '\n' (splitTagged rest))
  | c :: rest =>
    if c = '\n' && startsWithTag rest then [] :: splitTagged rest
    else Text.consFirst c (splitTagged rest)

/-- Output that may still belong to the last chunk. -/
structure Splitter where
  pending : Text
deriving DecidableEq, Repr

namespace Splitter

def start : Splitter :=
  ⟨[]⟩

def feed (splitter : Splitter) (text : Text) : List Text × Splitter :=
  let pieces := splitTagged (splitter.pending ++ text)
  (pieces.dropLast, ⟨pieces.getLastD []⟩)

def withoutLineEnd (text : Text) : Text :=
  if Text.endsWithChar text '\n' then
    let line := text.dropLast
    if Text.endsWithChar line '\r' then line.dropLast else line
  else text

def flush (splitter : Splitter) : List Text × Splitter :=
  let last := withoutLineEnd splitter.pending
  (if last = [] then [] else [last], start)

end Splitter

end LineProbe
