import LineProbe.Command.Basic

/-!
# The command line

Reads the files that the arguments name, carries out the command on them, and writes what it leaves behind.
-/

namespace LineProbe.CommandLine

def noProcesses : Runner Unit :=
  fun _ _ interpreter world =>
    (.error (.spawn interpreter ⟨38, "Function not implemented", none⟩), world)

def pathsIn (argument : Text) : List Text :=
  let value := (argument.dropWhile (· ≠ '=')).drop 1
  let folder := (Text.splitAtChar '/' argument).dropLast
  [argument, value, Text.join "/" (folder ++ [Config.fileName])].filter (· ≠ [])

def readNode (path : Text) : IO (Option (Text × Node)) := do
  try
    let real ← IO.FS.realPath (String.ofList path)
    if ← real.isDir then return some (path, .directory)
    let bytes ← IO.FS.readBinFile real
    return some (path, .file bytes.toList)
  catch _ => return none

def readEnvironment : IO Environment := do
  let names := ["CLEM_TIMEOUT_MS", "CLEM_INTERPRETER"]
  let found ← names.filterMapM fun name => do
    return (← IO.getEnv name).map fun value => (name.toList, value.toList)
  return found

def writeChanges (before after : Folder) : IO Unit :=
  after.entries.forM fun (place, node) =>
    match node with
    | .file bytes =>
      if before.node? place = some node then pure ()
      else IO.FS.writeBinFile (String.ofList (Text.join "/" place)) ⟨bytes.toArray⟩
    | .directory => pure ()

end LineProbe.CommandLine

open LineProbe LineProbe.CommandLine

def main (arguments : List String) : IO UInt32 := do
  let arguments := arguments.map String.toList
  let files ← (arguments.flatMap pathsIn).filterMapM readNode
  let workspace : Workspace := ⟨.ofFiles files, ← readEnvironment, "python3".toList⟩
  let (effect, _) := Command.runArguments noProcesses workspace arguments ()
  writeChanges workspace.folder effect.folder
  IO.print (String.ofList effect.output)
  IO.eprint (String.ofList effect.errors)
  match effect.failure with
  | some failure => IO.eprintln (String.ofList failure.message)
  | none => pure ()
  return UInt32.ofNat effect.exitCode
