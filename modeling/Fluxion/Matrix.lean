import Fluxion.Fault

/-!
# Matrices

The entries of a matrix row by row, with the numbers of rows and columns, which may be any
integers whose product is the number of entries. Rows and columns count from one; an entry is
looked up by its place in the list, so a column beyond the last one runs on into the next row.
-/

namespace Fluxion
set_option autoImplicit false

/-- A matrix over `α`. -/
structure Matrix (α : Type) where
  values : List α
  rows : Int
  cols : Int

namespace Matrix
variable {α β : Type}

/-- The matrix of some entries. -/
def ofList (values : List α) (rows cols : Int) : Outcome (Matrix α) :=
  if (values.length : Int) = rows * cols then .ok ⟨values, rows, cols⟩
  else .error (.badShape values.length (Fault.integerText rows) (Fault.integerText cols))

/-- The entry of a row and a column. -/
def get (m : Matrix α) (row col : Int) : Outcome α :=
  match itemAt? m.values ((row - 1) * m.cols + col - 1) with
  | some a => .ok a
  | none => .error .noPosition

/-- Whether there are as many rows as columns. -/
def isSquare (m : Matrix α) : Bool := m.rows = m.cols

/-- The faulty outcome of a matrix that is not square. -/
def requireSquare (m : Matrix α) (what : Squareness) : Outcome Unit :=
  if m.isSquare then .ok () else .error (.notSquare what)

/-- The integers from `first` to `last`. -/
def span (first last : Int) : List Int :=
  (List.range (last + 1 - first).toNat).map fun (k : Nat) => first + (k : Int)

/-- The sum of the entries on the diagonal. -/
def trace (add : α → α → Outcome α) (m : Matrix α) : Outcome α := do
  m.requireSquare .trace
  let first ← m.get 1 1
  (span 2 m.rows).foldlM (fun sum i => do add sum (← m.get i i)) first

/-- Whether the entries `(i, j)` and `(j, i)` of every listed pair are the same. -/
def samePairs (same : α → α → Bool) (m : Matrix α) : List (Int × Int) → Outcome Bool
  | [] => .ok true
  | (i, j) :: rest => do
    let a ← m.get i j
    let b ← m.get j i
    if same a b then samePairs same m rest else return false

/-- Whether the matrix equals its transpose. -/
def isSymmetric (same : α → α → Bool) (m : Matrix α) : Outcome Bool := do
  m.requireSquare .symmetry
  m.samePairs same <| (span 1 m.rows).flatMap fun i => (span (i + 1) m.cols).map fun j => (i, j)

/-- The matrix with a function applied to every entry. -/
def mapM (f : α → Outcome β) (m : Matrix α) : Outcome (Matrix β) := do
  return ⟨← m.values.mapM f, m.rows, m.cols⟩

/-- The width of a written entry. -/
def cellWidth : Nat := 20

/-- A text in the middle of a cell; an odd blank goes to the right. -/
def centred (text : List Char) : List Char :=
  let blanks := cellWidth - text.length
  List.replicate (blanks / 2) ' ' ++ text ++ List.replicate (blanks - blanks / 2) ' '

/-- A row of texts as one text. -/
def rowText (m : Matrix (Outcome (List Char))) (i : Int) : Outcome (List Char) := do
  let cells ← (span 1 m.cols).mapM fun j => do return centred (← (← m.get i j))
  return '|' :: List.intercalate ['|'] cells ++ ['|']

/-- A matrix of texts as one text, a line for each row. An entry that has no text only matters
where it stands. -/
def text (m : Matrix (Outcome (List Char))) : Outcome (List Char) := do
  return List.intercalate ['\n'] (← (span 1 m.rows).mapM m.rowText)

end Matrix

end Fluxion
