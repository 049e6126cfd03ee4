import LineProbe.Text.Quoted

/-!
# Errors of the system

Why the system refuses an operation on a file or a process.
-/

namespace LineProbe

structure SystemError where
  number : Int
  reason : Text
  file : Option Text
deriving DecidableEq, Repr

namespace SystemError

def message (error : SystemError) : Text :=
  "[Errno " ++ Text.ofInt error.number ++ "] " ++ error.reason ++
    (match error.file with
      | none => []
      | some file => ": " ++ Text.quoted file)

def missing (file : Text) : SystemError :=
  ⟨2, "No such file or directory", some file⟩

def notDirectory (file : Text) : SystemError :=
  ⟨20, "Not a directory", some file⟩

def isDirectory (file : Text) : SystemError :=
  ⟨21, "Is a directory", some file⟩

end SystemError

end LineProbe
