import LineProbe.Scan.Place

/-!
# Logical statements

A logical statement is one or more physical lines, held together by open brackets, an open string or a backslash at
the end of a line.
-/

namespace LineProbe

/-- The lines of one statement, from line `first` to line `last`. -/
structure LogicalStatement where
  first : Int
  last : Int
  before : List Text
  final : Text
  carryIn : Carry
  carryOut : Carry
deriving DecidableEq, Repr

namespace LogicalStatement

def lines (statement : LogicalStatement) : List Text :=
  statement.before ++ [statement.final]

def extent (statement : LogicalStatement) : Nat :=
  (statement.last - statement.first).toNat

def text (statement : LogicalStatement) : Text :=
  Text.joinLines statement.lines

def interior (statement : LogicalStatement) : List Int :=
  (List.range statement.extent).map fun (offset : Nat) => statement.first + 1 + offset

def finalParts (statement : LogicalStatement) : Text × Text :=
  let parts := stripComment statement.carryIn statement.final
  if parts.2 ≠ [] ∧ statement.carryOut ≠ .closed then (statement.final, []) else parts

def code (statement : LogicalStatement) : Text :=
  Text.joinLines (statement.before ++ [Text.trimRight statement.finalParts.1])

def comment (statement : LogicalStatement) : Text :=
  statement.finalParts.2

end LogicalStatement

/-! ## Positions -/

def indexOfPosition (length : Nat) (position : Int) : Nat :=
  (if position < 0 then length + position else position).toNat

def linesBetween (lines : List Text) (start stop : Int) : List Text :=
  (lines.take (indexOfPosition lines.length stop)).drop (indexOfPosition lines.length start)

def linesAlong (lines : List Text) (start stop : Int) : List Text :=
  ((lines ++ lines).take (stop + lines.length).toNat).drop (start + lines.length).toNat

/-! ## Assembling a statement -/

def continues (result : Scan) (depth : Int) (line : Text) : Bool :=
  result.carry ≠ .closed || 0 < depth || (result.comment.isNone && Text.endsWithChar line '\\')

def assembleFrom (first : Int) (carry : Carry) (depth : Int) (line : Text) :
    List Text → LogicalStatement
  | [] => ⟨first, first, [], line, carry, (scan carry line).carry⟩
  | next :: rest =>
    let result := scan carry line
    let depth := depth + result.delta
    if continues result depth line then
      let tail := assembleFrom (first + 1) result.carry depth next rest
      { tail with first, before := line :: tail.before }
    else ⟨first, first, [], line, carry, result.carry⟩

/-- The statement that begins with `line`, where `rest` are the lines it may extend to. -/
def assemble (first : Int) (line : Text) (rest : List Text) : LogicalStatement :=
  assembleFrom first .closed 0 line rest

theorem length_before_assembleFrom_le (first : Int) (carry : Carry) (depth : Int) (line : Text)
    (rest : List Text) : (assembleFrom first carry depth line rest).before.length ≤ rest.length := by
  induction rest generalizing first carry depth line with
  | nil => simp [assembleFrom]
  | cons next rest ih =>
    rw [assembleFrom]
    split
    · simpa using ih _ _ _ _
    · simp

theorem length_before_assemble_le (first : Int) (line : Text) (rest : List Text) :
    (assemble first line rest).before.length ≤ rest.length :=
  length_before_assembleFrom_le ..

@[simp]
theorem first_assembleFrom (first : Int) (carry : Carry) (depth : Int) (line : Text)
    (rest : List Text) : (assembleFrom first carry depth line rest).first = first := by
  cases rest with
  | nil => rfl
  | cons next rest =>
    rw [assembleFrom]
    split <;> rfl

theorem last_assembleFrom (first : Int) (carry : Carry) (depth : Int) (line : Text)
    (rest : List Text) :
    (assembleFrom first carry depth line rest).last =
      first + (assembleFrom first carry depth line rest).before.length := by
  induction rest generalizing first carry depth line with
  | nil => simp [assembleFrom]
  | cons next rest ih =>
    rw [assembleFrom]
    split
    · simp only [ih, List.length_cons]
      omega
    · simp

theorem last_assemble (first : Int) (line : Text) (rest : List Text) :
    (assemble first line rest).last = first + (assemble first line rest).before.length :=
  last_assembleFrom ..

def LogicalStatement.within? (statement : LogicalStatement) (lines : List Text) :
    Option LogicalStatement :=
  if 0 ≤ statement.first then some statement
  else
    match (linesBetween lines statement.first (statement.last + 1)).reverse with
    | [] => none
    | final :: before => some { statement with before := before.reverse, final }

theorem LogicalStatement.within?_of_nonneg {statement : LogicalStatement} (lines : List Text)
    (h : 0 ≤ statement.first) : statement.within? lines = some statement := by
  rw [within?, if_pos h]

/-! ## Cutting a range into statements -/

inductive StatementError where
  | noLine
  | noStatement
deriving DecidableEq, Repr

def StatementError.message : StatementError → Text
  | .noLine => "list index out of range"
  | .noStatement => "tuple index out of range"

def statementIn (script : List Text) (first : Int) (line : Text) (rest : List Text) :
    Except StatementError LogicalStatement :=
  match (assemble first line rest).within? script with
  | some statement => .ok statement
  | none => .error .noStatement

/-- The statement that begins at position `start` and ends before position `stop`. It has at least one
line. -/
def statementAt (script : List Text) (start stop : Int) : Except StatementError LogicalStatement :=
  if start < -script.length then .error .noLine
  else
    match linesAlong script start (max (start + 1) (min stop script.length)) with
    | [] => .error .noLine
    | line :: rest => statementIn script start line rest

def statementHeads (script : List Text) (index : Int) :
    List Text → List (Except StatementError (Int × Text))
  | [] => []
  | line :: rest =>
    if isBlankLine line then .ok (index, line) :: statementHeads script (index + 1) rest
    else
      match statementIn script index line rest with
      | .error cause => [.ok (index, line), .error cause]
      | .ok statement =>
        .ok (index, line) ::
          statementHeads script (statement.last + 1) (rest.drop statement.extent)
termination_by lines => lines.length
decreasing_by
  all_goals
    simp only [List.length_cons, List.length_drop]
    omega

/-- The positions of the blank lines and statements from position `start` up to position `stop`. -/
def statementStarts (script : List Text) (start stop : Int) : Except StatementError (List Int) :=
  let stop := min stop script.length
  if start < stop ∧ start < -script.length then .error .noLine
  else do
    let heads ← (statementHeads script start (linesAlong script start stop)).mapM id
    return heads.map Prod.fst

end LineProbe
