import LineProbe.Scan.Line

/-!
# Indentation

A script is indented by a number of blanks or by one tab per level.
-/

namespace LineProbe

inductive IndentMode where
  | spaces
  | tabs
deriving DecidableEq, Repr

def IndentMode.name : IndentMode → Text
  | .spaces => "spaces"
  | .tabs => "tabs"

def IndentMode.ofName? (name : Text) : Option IndentMode :=
  if name = "spaces" then some .spaces else if name = "tabs" then some .tabs else none

/-- The unit of indentation: `width` blanks, or one tab. -/
structure IndentConfig where
  width : Nat
  mode : IndentMode
  width_pos : 0 < width
deriving DecidableEq, Repr

namespace IndentConfig

def standard : IndentConfig :=
  ⟨4, .spaces, by decide⟩

instance : Inhabited IndentConfig := ⟨standard⟩

def char (config : IndentConfig) : Char :=
  match config.mode with
  | .spaces => ' '
  | .tabs => '\t'

def size (config : IndentConfig) : Nat :=
  match config.mode with
  | .spaces => config.width
  | .tabs => 1

def unit (config : IndentConfig) : Text :=
  List.replicate config.size config.char

def measure (config : IndentConfig) (line : Text) : Nat :=
  (line.takeWhile (· == config.char)).length / config.size

def render (config : IndentConfig) (level : Nat) : Text :=
  Text.repeated level config.unit

def entry (config : IndentConfig) (line : Text) (ignoreColon : Bool) : Nat :=
  let level := config.measure line
  if !ignoreColon && endsWithColon .closed line then level + 1 else level

end IndentConfig

end LineProbe
