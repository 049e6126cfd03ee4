import LineProbe.Config.Display
import LineProbe.Failure
import LineProbe.Folder
import LineProbe.Toml.Document

/-!
# Loading settings

Settings come from a file, from the environment, and from the caller, each of which takes precedence over the ones
before it.
-/

namespace LineProbe

abbrev Environment := List (Text × Text)

namespace Config

def fileName : Text := "clem.toml"

def table (settings : Settings) (key : Text) : Settings :=
  match Value.lookup key settings with
  | some (.table entries) => entries
  | _ => []

def fromVariable (environment : Environment) (key name : Text) : Settings :=
  match environment.find? (·.1 = name) with
  | some (_, text) => if text = [] then [] else [(key, .str text)]
  | none => []

def fromEnvironment (environment : Environment) : Settings :=
  fromVariable environment "timeout_ms" "CLEM_TIMEOUT_MS" ++
    fromVariable environment "interpreter" "CLEM_INTERPRETER"

def merge (overrides defaults : Settings) : Settings :=
  overrides.foldl (fun settings (key, value) =>
    match value with
    | .null => settings
    | value => Value.insert key value settings) defaults

def textOf (bytes : List Byte) : Except Utf8.Error Text :=
  (Utf8.decode? bytes).map Text.unifyLineEnds

def ofBytes (bytes : List Byte) : Except Failure Settings := do
  let text ← (textOf bytes).mapError .encoding
  match Toml.read text with
  | .ok settings => return settings
  | .error .malformed => return []
  | .error (.digits cause) => .error (.digits cause)

def load (folder : Folder) (path : Text) : Except Failure Settings :=
  match folder.read path with
  | .ok bytes => ofBytes bytes
  | .error _ => .ok []

def runSettings (file : Settings) (environment : Environment) (overrides : Settings) : Settings :=
  merge overrides (merge (fromEnvironment environment) (table file "run"))

def run (interpreter : Text) (file : Settings) (environment : Environment) (overrides : Settings) :
    Except Failure RunConfig :=
  (RunConfig.ofSettings interpreter (runSettings file environment overrides)).mapError .config

def display (file : Settings) : Except Failure DisplayConfig :=
  (DisplayConfig.ofSettings (table file "display")).mapError .config

end Config

end LineProbe
