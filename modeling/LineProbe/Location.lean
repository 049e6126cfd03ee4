import LineProbe.Text.Basic

/-!
# Paths

Paths with slashes between their parts.
-/

namespace LineProbe.Location

def parts (path : Text) : List Text :=
  (Text.splitAtChar '/' path).filter fun part => part ≠ [] && part ≠ ['.']

def root (path : Text) : Text :=
  if Text.startsWith path "//" && !Text.startsWith path "///" then "//"
  else if Text.startsWith path "/" then "/"
  else []

def normalize (path : Text) : Text :=
  let short := root path ++ Text.join "/" (parts path)
  if short = [] then "." else short

def namesDirectory (path : Text) : Bool :=
  let last := (Text.splitAtChar '/' path).getLastD []
  last = [] || last = ['.'] || last = ['.', '.']

end LineProbe.Location
