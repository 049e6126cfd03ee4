import LineProbe.Config.Error
import LineProbe.Indent

/-!
# Indentation settings

Building the unit of indentation from configuration values.
-/

namespace LineProbe.IndentConfig

def ofWidth (mode : IndentMode) (width : Int) : Except ConfigError IndentConfig :=
  if h : 0 < width.toNat then .ok ⟨width.toNat, mode, h⟩
  else .error (.tooSmall "indent_width" 1 width)

def modeOf (value : Value) : Except ConfigError IndentMode :=
  match value with
  | .str name =>
    match IndentMode.ofName? name with
    | some mode => .ok mode
    | none => .error (.unknownMode value)
  | _ => .error (ConfigError.unknownMode value).orUnwritable

def ofValues (width mode : Option Value) : Except ConfigError IndentConfig := do
  let mode ←
    match mode with
    | none => .ok standard.mode
    | some value => modeOf value
  let width ←
    match width with
    | none => .ok (standard.width : Int)
    | some value => integerSetting "indent_width" value 1
  ofWidth mode width

end LineProbe.IndentConfig
