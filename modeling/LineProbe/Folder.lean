import LineProbe.Location
import LineProbe.SystemError
import LineProbe.Text.Utf8

/-!
# Folders

A folder with the files in it, as far as they matter to a command that is given there.
-/

namespace LineProbe

inductive Node where
  | file (bytes : List Byte)
  | directory
deriving DecidableEq, Repr

structure Folder where
  entries : List (List Text × Node)
deriving Repr

namespace Folder

def rootPlace : List Text := ["/"]

def startPlace (path : Text) : List Text :=
  if Location.root path = [] then [] else rootPlace

def ofFiles (files : List (Text × Node)) : Folder :=
  ⟨files.map fun (name, node) => (startPlace name ++ Location.parts name, node)⟩

def upName : Text := ".."

def isAround (place : List Text) : Bool :=
  place.all (· = upName)

def up (place : List Text) : List Text :=
  if isAround place then place ++ [upName]
  else if place = rootPlace then place
  else place.dropLast

def node? (folder : Folder) (place : List Text) : Option Node :=
  if isAround place || place = rootPlace then some .directory
  else
    match folder.entries.find? (·.1 = place) with
    | some entry => some entry.2
    | none =>
      if folder.entries.any fun entry => place.isPrefixOf entry.1 then some .directory else none

def walk (folder : Folder) (path : Text) : List Text → List Text → Except SystemError (List Text)
  | place, [] => .ok place
  | place, part :: parts =>
    match folder.node? place with
    | some .directory =>
      walk folder path (if part = upName then up place else place ++ [part]) parts
    | some (.file _) => .error (.notDirectory path)
    | none => .error (.missing path)

def locate (folder : Folder) (path : Text) : Except SystemError (List Text × Node) := do
  if path = [] then .error (.missing path)
  else
    let place ← folder.walk path (startPlace path) (Location.parts path)
    match folder.node? place with
    | none => .error (.missing path)
    | some .directory => return (place, .directory)
    | some (.file bytes) =>
      if Location.namesDirectory path then .error (.notDirectory path)
      else return (place, .file bytes)

def read (folder : Folder) (path : Text) : Except SystemError (List Byte) :=
  match folder.locate path with
  | .ok (_, .file bytes) => .ok bytes
  | .ok (_, .directory) => .error (.isDirectory path)
  | .error error => .error error

def setFile (place : List Text) (bytes : List Byte) :
    List (List Text × Node) → List (List Text × Node)
  | [] => [(place, .file bytes)]
  | entry :: entries =>
    if entry.1 = place then (place, .file bytes) :: entries else entry :: setFile place bytes entries

def write (folder : Folder) (path : Text) (bytes : List Byte) : Except SystemError Folder := do
  let place ← folder.walk path (startPlace path) (Location.parts path)
  match folder.node? place, folder.node? place.dropLast with
  | some .directory, _ => .error (.isDirectory path)
  | _, some .directory => return ⟨setFile place bytes folder.entries⟩
  | _, some (.file _) => .error (.notDirectory path)
  | _, none => .error (.missing path)

end Folder

end LineProbe
