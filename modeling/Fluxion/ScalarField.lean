import Fluxion.Matrix
import Fluxion.Parse
import Fluxion.Expr.Eval
import Fluxion.Expr.Print

/-!
# Scalar fields

A scalar field is a tree together with the number of variables that it may use. Two fields
join only when they have the same number of variables.
-/

namespace Fluxion
set_option autoImplicit false

/-- A tree in `dim` variables. -/
structure ScalarField where
  dim : Nat
  tree : Expr
  deriving DecidableEq

namespace ScalarField

/-- The field that a text writes. -/
def read (ctx : Context) (dim : Nat) (text : List Char) : Outcome ScalarField := do
  return ⟨dim, ← build ctx dim text⟩

/-- Two fields joined by a constructor of trees. -/
def combine (op : Expr → Expr → Expr) (f g : ScalarField) : Outcome ScalarField :=
  if f.dim = g.dim then .ok ⟨f.dim, op f.tree g.tree⟩ else .error .typeMismatch

/-- The axes of the variables. -/
def axes (f : ScalarField) : List Axis := Axis.all.take f.dim

/-- The derivative along an axis. -/
def slope (f : ScalarField) (along : Axis) : Outcome ScalarField := do
  return ⟨f.dim, ← ofTree (f.tree.derivative along)⟩

/-- The derivatives along all axes. -/
def gradient (f : ScalarField) : Outcome (List ScalarField) := f.axes.mapM f.slope

/-- The derivatives of the derivatives, a row for each first derivative. -/
def hessian (f : ScalarField) : Outcome (Matrix ScalarField) := do
  let first ← f.gradient
  let entries ← first.mapM fun d => f.axes.mapM d.slope
  Matrix.ofList entries.flatten f.dim f.dim

/-- The value at a point with a coordinate for each variable. -/
def eval (f : ScalarField) (point : List Float) : Outcome Float :=
  if point.length = f.dim then ofTree (f.tree.eval (point ++ List.replicate (3 - f.dim) 0))
  else .error .typeMismatch

/-- The value at a point in space; the second and the third coordinate may be left out. -/
def evalAt (f : ScalarField) : List Float → Outcome Float
  | [x] => ofTree (f.tree.eval [x, 0, 0])
  | [x, y] => ofTree (f.tree.eval [x, y, 0])
  | [x, y, z] => ofTree (f.tree.eval [x, y, z])
  | _ => .error .typeMismatch

end ScalarField

end Fluxion
