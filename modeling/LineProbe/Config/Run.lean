import LineProbe.Config.Indent
import LineProbe.Probe

/-!
# Run settings

The settings of a run, taken from a table.
-/

namespace LineProbe

abbrev Settings := List (Text × Value)

structure RunConfig where
  indent : IndentConfig
  timeout : Int
  callLimit : Int
  interpreter : Text
  debounce : Int

namespace RunConfig

def standard (interpreter : Text) : RunConfig :=
  ⟨.standard, 5000, Probe.defaultCallLimit, interpreter, 300⟩

def setting (settings : Settings) (key : Text) (default : Value) : Value :=
  (Value.lookup key settings).getD default

def integer (settings : Settings) (key : Text) (default minimum : Int) : Except ConfigError Int :=
  integerSetting key (setting settings key (.int default)) minimum

def text (settings : Settings) (key default : Text) : Except ConfigError Text :=
  textSetting key (setting settings key (.str default))

/-- The settings in a table. The indentation mode is looked at first. -/
def ofSettings (interpreter : Text) (settings : Settings) : Except ConfigError RunConfig := do
  let standard := standard interpreter
  let mode ← IndentConfig.modeOf (.str (← text settings "indent_mode" standard.indent.mode.name))
  let width ← integer settings "indent_width" standard.indent.width 1
  let indent ← IndentConfig.ofWidth mode width
  let timeout ← integer settings "timeout_ms" standard.timeout 1
  let callLimit ← integer settings "call_limit" standard.callLimit 1
  let interpreter ← text settings "interpreter" standard.interpreter
  let debounce ← integer settings "debounce_ms" standard.debounce 0
  return { indent, timeout, callLimit, interpreter, debounce }

end RunConfig

end LineProbe
