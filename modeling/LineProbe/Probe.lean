import LineProbe.Text.Basic

/-!
# Probes

The statements that an instrumented program prints its values with, and the support code in front of it.
-/

namespace LineProbe.Probe

def defaultCallLimit : Int := 100

def guardMark : Text := "ClemExcep"

/-! ## Statements -/

def tag (line : Int) : Text :=
  "\"" ++ Text.ofInt line ++ ":\""

def bare (line : Int) : Text :=
  "print(" ++ tag line ++ ")"

def showing (line : Int) (expression : Text) : Text :=
  "print(" ++ tag line ++ " + str(" ++ expression ++ "))"

def parameter (line : Int) (name : Text) : Text :=
  "print(\"" ++ Text.ofInt line ++ ":" ++ name ++ ": \" + str(" ++ name ++ "))"

def mark (line : Int) : Text :=
  "_clem_mark(\"" ++ Text.ofInt line ++ "\")"

def enter (line : Int) : Text :=
  "_clem_enter(\"" ++ Text.ofInt line ++ "\")"

def guardCall (site : Text) (line limit : Int) : Text :=
  "_clem_guard(\"" ++ site ++ "\", " ++ Text.ofInt line ++ ", " ++ Text.ofInt limit ++ ")"

/-- An expression that counts a call site and then gives `value`. -/
def guardedValue (site : Text) (line limit : Int) (value : Text) : Text :=
  "(" ++ guardCall site line limit ++ " or (" ++ value ++ "))"

def siteName (number : Nat) : Text :=
  's' :: Text.ofNat number

/-! ## Support code -/

def preamble : List Text :=
  List.map String.toList
    ["import atexit as _clem_atexit",
     "_clem_calls = \x7b\x7d",
     "_clem_branches = \x7b\x7d",
     "",
     "",
     "class _ClemGuardError(Exception):",
     "    pass",
     "",
     "",
     "def _clem_guard(site, line, limit):",
     "    count = _clem_calls.get(site, 0) + 1",
     "    _clem_calls[site] = count",
     "    if count > limit:",
     "        raise _ClemGuardError(\"ClemExcep%d:call limit of %d reached\" % (line, limit))",
     "",
     "",
     "def _clem_mark(key):",
     "    _clem_branches.setdefault(key, 0)",
     "",
     "",
     "def _clem_enter(key):",
     "    _clem_branches[key] = _clem_branches.get(key, 0) + 1",
     "",
     "",
     "def _clem_report():",
     "    for key, count in _clem_branches.items():",
     "        if count == 0:",
     "            print(key + \":!!! Never runs\")",
     "        else:",
     "            print(key + \":\" + str(count) + \" iterations\")",
     "",
     "",
     "_clem_atexit.register(_clem_report)",
     ""]

/-! ## Reading probes back -/

def lineDigits? (statement : Text) : Option Text :=
  let start : Text := "print(\""
  let text := Text.trimLeft statement
  if Text.startsWith text start then
    let rest := text.drop start.length
    let digits := rest.takeWhile Text.isDigitChar
    if digits ≠ [] ∧ (rest.drop digits.length).head? = some ':' then some digits else none
  else none

end LineProbe.Probe
