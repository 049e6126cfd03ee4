import LineProbe.Indent
import LineProbe.Probe

/-!
# Pieces of an instrumented program

An instrumented program is a list of pieces: code of the script, which may span several lines, and lines that are put
in.
-/

namespace LineProbe

/-! ## Names that are put in -/

inductive TempKind where
  | augmented
  | returned
  | iterated
  | mocked
deriving DecidableEq, Repr

/-- A name that is put in. Its number is used for nothing else in the program. -/
structure Temp where
  kind : TempKind
  number : Nat
deriving DecidableEq, Repr

def Temp.name (temp : Temp) : Text :=
  let stem : Text :=
    match temp.kind with
    | .augmented => "_clem_aug_"
    | .returned => "_clem_ret_"
    | .iterated => "_clem_iter_"
    | .mocked => "_clem_mock_"
  stem ++ Text.ofNat temp.number

/-! ## Lines that are put in -/

inductive Injection where
  | probe (payload : Option Text)
  | parameter (name : Text)
  | mark (key : Int)
  | enter
  | limitGuard (site : Nat) (limit : Int)
  | update (target operator : Text) (temp : Temp)
  | giveBack (temp : Option Temp)
  | pass
  | callMock (temp : Temp) (arguments : Text)
deriving DecidableEq, Repr

def Injection.text (origin : Int) : Injection → Text
  | .probe none => Probe.bare origin
  | .probe (some payload) => Probe.showing origin payload
  | .parameter name => Probe.parameter origin name
  | .mark key => Probe.mark key
  | .enter => Probe.enter origin
  | .limitGuard site limit => Probe.guardCall (Probe.siteName site) origin limit
  | .update target operator temp => target ++ " " ++ operator ++ "= " ++ temp.name
  | .giveBack none => "return"
  | .giveBack (some temp) => "return " ++ temp.name
  | .pass => "pass"
  | .callMock temp arguments => temp.name ++ "(" ++ arguments ++ ")"

/-! ## Pieces -/

inductive Piece where
  | code (text : Text) (first last : Int)
  | header (text : Text) (first last : Int)
  | binding (indentation : Text) (temp : Temp) (value : Text) (first last : Int)
  | loopHead (indentation head : Text) (temp : Temp) (line : Int)
  | injected (level : Nat) (what : Injection) (origin : Int)
deriving DecidableEq, Repr

/-- A line of an instrumented program, with the line of the script that it stands for. -/
structure GeneratedLine where
  text : Text
  origin : Option Int
deriving DecidableEq, Repr

def codeLines (text : Text) (first last : Int) : List GeneratedLine :=
  (Text.splitNewlines text).zipIdx.map fun (line, offset) => ⟨line, some (min (first + (offset : Int)) last)⟩

def Piece.lines (config : IndentConfig) : Piece → List GeneratedLine
  | .code text first last | .header text first last => codeLines text first last
  | .binding indentation temp value first last =>
    codeLines (indentation ++ temp.name ++ " = " ++ value) first last
  | .loopHead indentation head temp line => [⟨indentation ++ head ++ temp.name ++ ":", some line⟩]
  | .injected level what origin => [⟨config.render level ++ what.text origin, some origin⟩]

def renderPieces (config : IndentConfig) (pieces : List Piece) : List GeneratedLine :=
  pieces.flatMap (Piece.lines config)

end LineProbe
