import LineProbe.Safety.Directive

/-!
# Blocking calls

Calls that wait for input are never made: each of them is replaced by a guarded value, which is the mock of the
statement or an empty string.
-/

namespace LineProbe

def blockingNames : List Text :=
  ["sys.stdin.readline", "sys.stdin.read", "getpass.getpass", "getpass", "input"]

/-- The part of a text from index `start` up to, and without, index `stop`. -/
structure Span where
  start : Nat
  stop : Nat
deriving DecidableEq, Repr

def collectSpans (code : Text) (isCode : Nat → Bool) (position : Nat) : List NamedCall → List Span
  | [] => []
  | call :: calls =>
    if call.start < position || !isCode call.start then collectSpans code isCode position calls
    else
      match matchingBracket? code call.openParen with
      | none => []
      | some close => ⟨call.start, close + 1⟩ :: collectSpans code isCode (close + 1) calls

/-- The spans of the blocking calls of a code text. They follow each other without overlap; a call
inside another one is part of its span. -/
def blockingSpans (code : Text) : List Span :=
  let indices := (places code).map Place.index
  collectSpans code (indices.contains ·) 0
    (namedCalls blockingNames (fun c => Text.isWordChar c || c == '.') code)

def hasBlockingCall (code : Text) : Bool :=
  !(blockingSpans code).isEmpty

def replaceSpans (code : Text) (value : Nat → Text) (cursor site : Nat) : List Span → Text
  | [] => code.drop cursor
  | span :: spans =>
    Text.slice code cursor span.start ++ value site ++
      replaceSpans code value span.stop (site + 1) spans

def mockValue (directives : Directives) : Text :=
  match directives.mock with
  | some [] | none => "\"\""
  | some mock => mock

/-- The code with a guarded value in place of each blocking call, and the number of calls. The sites
of the guards are numbered from `site` on. -/
def substituteBlocking (code : Text) (line : Int) (directives : Directives) (callLimit : Int)
    (site : Nat) : Text × Nat :=
  let spans := blockingSpans code
  let limit := directives.effectiveLimit callLimit
  let value := fun number =>
    Probe.guardedValue (Probe.siteName number) line limit (mockValue directives)
  (replaceSpans code value 0 site spans, spans.length)

end LineProbe
