import LineProbe.Text.Class

/-!
# Text

A text is a list of characters: every index, offset and length counts characters.
-/

namespace LineProbe

abbrev Text := List Char

instance : Coe String Text := ⟨String.toList⟩

namespace Text

/-! ## Trimming -/

def trimLeft (text : Text) : Text :=
  text.dropWhile isBlankChar

def trimRight : Text → Text
  | [] => []
  | c :: rest =>
    match trimRight rest with
    | [] => if isBlankChar c then [] else [c]
    | kept => c :: kept

def trim (text : Text) : Text :=
  trimRight (trimLeft text)

def leadingBlanks (text : Text) : Text :=
  text.takeWhile isBlankChar

/-! ## Parts -/

def startsWith (text start : Text) : Bool :=
  start.isPrefixOf text

def endsWithChar (text : Text) (c : Char) : Bool :=
  text.getLast? == some c

def slice (text : Text) (start stop : Nat) : Text :=
  (text.take stop).drop start

def includes (part : Text) : Text → Bool
  | [] => part.isEmpty
  | c :: rest => startsWith (c :: rest) part || includes part rest

def nameAtStart : Text → Text
  | [] => []
  | c :: rest => if isNameStart c then c :: rest.takeWhile isWordChar else []

/-! ## Lines -/

def consFirst (c : Char) : List Text → List Text
  | [] => [[c]]
  | piece :: pieces => (c :: piece) :: pieces

def splitAtChar (mark : Char) : Text → List Text
  | [] => [[]]
  | c :: rest => if c = mark then [] :: splitAtChar mark rest else consFirst c (splitAtChar mark rest)

def splitNewlines (text : Text) : List Text :=
  splitAtChar '\n' text

/-- The lines of a script. A line ends at a newline, and a carriage return directly before the
newline belongs to the line end. -/
def splitLines : Text → List Text
  | [] => [[]]
  | '\r' :: '\n' :: rest => [] :: splitLines rest
  | c :: rest => if c = '\n' then [] :: splitLines rest else consFirst c (splitLines rest)

def join (separator : Text) : List Text → Text
  | [] => []
  | [piece] => piece
  | piece :: pieces => piece ++ separator ++ join separator pieces

def joinLines (lines : List Text) : Text :=
  join ['\n'] lines

def unifyLineEnds : Text → Text
  | [] => []
  | '\r' :: '\n' :: rest => '\n' :: unifyLineEnds rest
  | c :: rest => (if c = '\r' then '\n' else c) :: unifyLineEnds rest

def repeated : Nat → Text → Text
  | 0, _ => []
  | count + 1, unit => unit ++ repeated count unit

/-! ## Numbers -/

def ofNat (n : Nat) : Text :=
  Nat.toDigits 10 n

def ofInt : Int → Text
  | .ofNat n => ofNat n
  | .negSucc n => '-' :: ofNat (n + 1)

/-! ## Laws -/

theorem length_trimLeft_le (text : Text) : (trimLeft text).length ≤ text.length :=
  (List.dropWhile_sublist _).length_le

theorem splitAtChar_ne_nil (mark : Char) (text : Text) : splitAtChar mark text ≠ [] := by
  cases text with
  | nil => simp [splitAtChar]
  | cons c rest =>
    unfold splitAtChar
    split
    · simp
    · cases splitAtChar mark rest <;> simp [consFirst]

theorem join_splitAtChar (mark : Char) (text : Text) : join [mark] (splitAtChar mark text) = text := by
  induction text with
  | nil => rfl
  | cons c rest ih =>
    have nonempty := splitAtChar_ne_nil mark rest
    rw [splitAtChar]
    cases pieces : splitAtChar mark rest with
    | nil => exact absurd pieces nonempty
    | cons piece others =>
      rw [pieces] at ih
      split
      · next h => simp [join, ih, h]
      · cases others <;> simp_all [join, consFirst]

end Text

end LineProbe
