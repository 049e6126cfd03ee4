import LineProbe.Config.Run

/-!
# Display settings

The colours in which results are shown.
-/

namespace LineProbe

structure DisplayConfig where
  normal : Text
  active : Text
  error : Text
  activeError : Text
deriving DecidableEq, Repr

namespace DisplayConfig

def standard : DisplayConfig :=
  ⟨"bright_black", "cyan", "red", "bright_red"⟩

def ofSettings (settings : Settings) : Except ConfigError DisplayConfig := do
  let normal ← RunConfig.text settings "normal_color" standard.normal
  let active ← RunConfig.text settings "active_color" standard.active
  let error ← RunConfig.text settings "error_color" standard.error
  let activeError ← RunConfig.text settings "active_error_color" standard.activeError
  return { normal, active, error, activeError }

end DisplayConfig

end LineProbe
