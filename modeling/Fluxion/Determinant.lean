import Fluxion.Matrix
import Fluxion.Polynomial

/-!
# Determinants

The determinant of polynomials is written out for two and three rows. That of doubles comes
from elimination with the largest pivot of each column: its size is collected as a logarithm.
The characteristic polynomial of a matrix is the determinant of the polynomials `a - t` on the
diagonal and `a` elsewhere.
-/

namespace Fluxion
set_option autoImplicit false

namespace Matrix
variable {α : Type}

/-- The determinant of a matrix of polynomials. -/
def polynomialDeterminant (R : Coefficients α) (m : Matrix (Polynomial α)) :
    Outcome (Polynomial α) := do
  let product (a b : Int × Int) : Outcome (Polynomial α) := do
    let p ← m.get a.1 a.2
    let q ← m.get b.1 b.2
    p.mul R q
  let triple (a b c : Int × Int) : Outcome (Polynomial α) := do
    let p ← product a b
    let q ← m.get c.1 c.2
    p.mul R q
  if m.rows = 2 then
    let right ← product (1, 1) (2, 2)
    let left ← product (1, 2) (2, 1)
    right.sub R left
  else if m.rows = 3 then
    let right₁ ← triple (1, 1) (2, 2) (3, 3)
    let right₂ ← triple (1, 2) (2, 3) (3, 1)
    let sum ← right₁.add R right₂
    let right₃ ← triple (1, 3) (2, 1) (3, 2)
    let sum ← sum.add R right₃
    let left₁ ← triple (3, 1) (2, 2) (1, 3)
    let sum ← sum.sub R left₁
    let left₂ ← triple (3, 2) (2, 3) (1, 1)
    let sum ← sum.sub R left₂
    let left₃ ← triple (3, 3) (2, 1) (1, 2)
    sum.sub R left₃
  else .error (.badDeterminant (Fault.integerText m.rows) (Fault.integerText m.cols))

/-- An entry of the matrix whose determinant is the characteristic polynomial, by its place. -/
def characteristicEntry (R : Coefficients α) (cols : Int) (place : Nat) (a : α) :
    Outcome (Polynomial α) :=
  if cols + 1 = 0 then .error .divisionByZero
  else if Int.emod place (cols + 1) = 0 then .ok (Polynomial.ofList R [a, R.ofInt (-1)])
  else .ok (Polynomial.constant a)

/-- The matrix whose determinant is the characteristic polynomial. -/
def characteristicMatrix (R : Coefficients α) (m : Matrix α) : Outcome (Matrix (Polynomial α)) := do
  let entries ← m.values.zipIdx.mapM fun (a, place) => characteristicEntry R m.cols place a
  return ⟨entries, m.rows, m.cols⟩

/-- The characteristic polynomial of a square matrix. -/
def characteristicPolynomial (R : Coefficients α) (m : Matrix α) : Outcome (Polynomial α) := do
  m.requireSquare .characteristicPolynomial
  polynomialDeterminant R (← characteristicMatrix R m)

end Matrix

namespace Doubles

/-- The size of the first entry of a row. -/
def leadSize : List Float → Float
  | [] => 0
  | a :: _ => a.abs

/-- The place of the first row whose first entry is largest, given the place and the size of the
largest so far and the place of the first row that is left. -/
def largestFrom (place next : Nat) (size : Float) : List (List Float) → Nat
  | [] => place
  | row :: rest =>
    if size < leadSize row then largestFrom next (next + 1) (leadSize row) rest
    else largestFrom place (next + 1) size rest

/-- The place of the first row whose first entry is largest. -/
def pivotPlace : List (List Float) → Nat
  | [] => 0
  | row :: rest => largestFrom 0 1 (leadSize row) rest

/-- A row without its first column, once the multiple of the pivot row is taken off that
clears it. -/
def cleared : List Float → List Float → List Float
  | p :: pivot, a :: row => List.zipWith (fun u v => v - a / p * u) pivot row
  | _, _ => []

/-- The determinant of `n` rows, given the sign and the logarithm of the pivots so far. -/
def eliminate : Nat → Float → Float → List (List Float) → Float
  | n + 1, sign, size, first :: rest =>
    let place := pivotPlace (first :: rest)
    let (pivot, others) :=
      if place = 0 then (first, rest)
      else (rest.getD (place - 1) [], rest.set (place - 1) first)
    match pivot with
    | [] => 0
    | p :: _ =>
      if p == 0 then 0
      else
        let sign := if place = 0 then sign else -sign
        let sign := if p < 0 then -sign else sign
        eliminate n sign (size + p.abs.log) (others.map (cleared pivot))
  | _, sign, size, _ => sign * size.exp

/-- Entries cut into rows of a length. -/
def rowsOf (cols : Nat) : Nat → List Float → List (List Float)
  | 0, _ => []
  | n + 1, values => values.take cols :: rowsOf cols n (values.drop cols)

/-- The determinant of a square matrix of doubles. -/
def determinant (m : Matrix Float) : Outcome Float :=
  if m.rows < 0 then .error .badLayout
  else .ok (eliminate m.rows.toNat 1 0 (rowsOf m.cols.toNat m.rows.toNat m.values))

end Doubles

end Fluxion
