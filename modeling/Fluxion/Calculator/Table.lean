import Fluxion.Calculator.Operators

/-!
# Matrices of values

The numbers of rows and columns of a matrix may be given as any numbers whose product is the
number of entries. Places are computed from them as they were given, so entries can only be looked
up when the places come out as integers.

A matrix of polynomials has a polynomial as its determinant. Any other is first laid out as an
array of doubles: lists among the entries must have one shape, and what they hold must have the
shape of the matrix in all.
-/

namespace Fluxion.Calculator
set_option autoImplicit false

/-- Entries with numbers of rows and columns as they were given. -/
structure Table where
  values : List Value
  rows : Value
  cols : Value

namespace Table
open Value

/-- The table of some entries, whose number must be that of the rows times that of the columns. -/
def ofList (values : List Value) (rows cols : Value) : Outcome Table := do
  let product ← join .mul rows cols
  if same (intValue values.length) product then return ⟨values, rows, cols⟩
  else do .error (.badShape values.length (← rows.shownText) (← cols.shownText))

/-- The table that a value must be. -/
def ofValue : Value → Outcome Table
  | matrix values rows cols => .ok ⟨values, rows, cols⟩
  | _ => .error .unsupported

/-- A table as a value. -/
def toValue (t : Table) : Value := matrix t.values t.rows t.cols

/-- The place of a row and a column, counted from one. -/
def place (t : Table) (row col : Value) : Outcome Value := do
  let before ← join .mul (← join .sub row (intValue 1)) t.cols
  join .sub (← join .add before col) (intValue 1)

/-- The entry of a row and a column. -/
def get (t : Table) (row col : Value) : Outcome Value :=
  match row.int?, t.cols.int?, col.int? with
  | some row, some cols, some col => Matrix.get ⟨t.values, 0, cols⟩ row col
  | _, _, _ => do
    let _ ← (← t.place row col).toInt
    .error .typeMismatch

/-- Whether there are as many rows as columns. -/
def isSquare (t : Table) : Bool := same t.rows t.cols

/-- The faulty outcome of a table that is not square. -/
def requireSquare (t : Table) (what : Squareness) : Outcome Unit :=
  if t.isSquare then .ok () else .error (.notSquare what)

/-- The matrix of a table whose numbers of rows and columns are integers. -/
def toMatrix (t : Table) : Outcome (Matrix Value) := do
  return ⟨t.values, ← t.rows.toInt, ← t.cols.toInt⟩

/-- The sum of the entries on the diagonal. -/
def trace (t : Table) : Outcome Value := do
  t.requireSquare .trace
  let _ ← t.get (intValue 1) (intValue 1)
  (← t.toMatrix).trace (join .add)

/-- Whether the table equals its transpose. -/
def isSymmetric (t : Table) : Outcome Bool := do
  t.requireSquare .symmetry
  if (← t.rows.toInt) < 1 then return true
  else (← t.toMatrix).isSymmetric same

/-- The entries of a table of polynomials. -/
def polynomials? (t : Table) : Option (List (Polynomial Value)) :=
  t.values.mapM fun v =>
    match v with
    | polynomial coeffs => some ⟨coeffs⟩
    | _ => none

/-- The determinant of a table of polynomials. -/
def polynomialDeterminant (t : Table) (entries : List (Polynomial Value)) : Outcome Value := do
  match t.rows.choice? [2, 3] with
  | some rows => do
    let p ← Matrix.polynomialDeterminant coefficients ⟨entries, rows, ← t.cols.toInt⟩
    return polynomial p.coeffs
  | none => do .error (.badDeterminant (← t.rows.readerText) (← t.cols.readerText))

mutual

/-- The lengths of nested lists, from the outside in, if all lists of a depth agree. -/
def shape? : Value → Option (List Nat)
  | list items | tuple items =>
    match commonShape? items with
    | some shape => some (items.length :: shape)
    | none => none
  | _ => some []

/-- The shape of all of some values, if they agree; no values have the shape of a single one. -/
def commonShape? : List Value → Option (List Nat)
  | [] => some []
  | v :: rest =>
    match shape? v with
    | none => none
    | some shape => if agree shape rest then some shape else none

/-- Whether all of some values have that shape. -/
def agree (shape : List Nat) : List Value → Bool
  | [] => true
  | v :: rest => shape? v = some shape && agree shape rest

end

mutual

/-- What nested lists hold, in order. -/
def leaves : Value → List Value
  | list items | tuple items => allLeaves items
  | v => [v]

/-- What some values hold, in order. -/
def allLeaves : List Value → List Value
  | [] => []
  | v :: rest => leaves v ++ allLeaves rest

end

/-- An entry of an array of doubles; nothing is not a number. -/
def arrayEntry : Value → Outcome Float
  | null => .ok Decimal.notANumber
  | v => v.toDouble

/-- The entries of a table as a matrix of doubles. -/
def doubles (t : Table) : Outcome (Matrix Float) := do
  if (commonShape? t.values).isNone then .error .badLayout
  let entries ← (allLeaves t.values).mapM arrayEntry
  let rows ← t.rows.toInt
  let cols ← t.cols.toInt
  if (entries.length : Int) = rows * cols ∧ 0 ≤ rows then return ⟨entries, rows, cols⟩
  else .error .badLayout

/-- The determinant of a table. -/
def determinant (t : Table) : Outcome Value := do
  t.requireSquare .determinant
  match t.polynomials? with
  | some entries => t.polynomialDeterminant entries
  | none => do return doubleValue (← Doubles.determinant (← t.doubles))

/-- Whether the places on the diagonal can be told: what is one more than the number of columns
must divide. -/
def requireDivisor (t : Table) : Outcome Unit := do
  match (← join .add t.cols (intValue 1)).counted with
  | number (.fraction _) => .error .typeMismatch
  | number n => if n.isZero then .error .divisionByZero else .ok ()
  | _ => .error .typeMismatch

/-- The characteristic polynomial of a table. -/
def characteristicPolynomial (t : Table) : Outcome Value := do
  t.requireSquare .characteristicPolynomial
  if !t.values.isEmpty then t.requireDivisor
  match t.cols.int? with
  | some cols => do
    let m ← Matrix.characteristicMatrix coefficients ⟨t.values, cols, cols⟩
    t.polynomialDeterminant m.values
  | none => t.polynomialDeterminant []

/-- The values of a table of scalar fields at a point. -/
def eval (t : Table) (point : List Float) : Outcome Table := do
  let values ← t.values.mapM fun v => do return doubleValue (← (← v.toField).eval point)
  return { t with values }

end Table

end Fluxion.Calculator
