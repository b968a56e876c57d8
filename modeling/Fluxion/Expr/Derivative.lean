import Fluxion.Expr.Weight

/-!
# Derivatives

`derivative a f` is the partial derivative of `f` along the axis `a`, assembled with the
simplifying constructors. Trees that are not finished have none: a marker of an unresolved
call, or a variable of no axis, is reported where it is met, the left operand first.

A power with a varying exponent is put over the base `e`, unless it has that base already, and
the tree so made is differentiated; `weight` falls along that step.
-/

namespace Fluxion
set_option autoImplicit false

/-- What makes a tree unfit for printing, evaluation or differentiation. -/
inductive TreeFault where
  /-- The marker of an unresolved call. -/
  | openCall
  /-- A variable of no axis. -/
  | noAxis
  /-- A constant beyond the range of the doubles. -/
  | tooLarge
  /-- A constant with more digits than are written. -/
  | tooManyDigits
  deriving DecidableEq, Repr

namespace Expr

/-- The derivative of a named function at the tree `a`. -/
def outer (k : Kind) (a : Expr) : Expr :=
  match k with
  | .sin => special .cos a
  | .cos => neg (special .sin a)
  | .tan => powr (special .sec a) 2
  | .cot => neg (powr (special .csc a) 2)
  | .sec => mul (special .sec a) (special .tan a)
  | .csc => neg (mul (special .csc a) (special .cot a))
  | .asin => div (const 1) (sqrt (sub (const 1) (powr a 2)))
  | .acos => div (const (-1)) (sqrt (sub (const 1) (powr a 2)))
  | .atan => div (const 1) (add (const 1) (powr a 2))
  | .sinh => special .cosh a
  | .cosh => special .sinh a
  | .tanh => powr (special .sech a) 2
  | .coth => neg (powr (special .csch a) 2)
  | .sech => neg (mul (special .sech a) (special .tanh a))
  | .csch => neg (mul (special .csch a) (special .coth a))
  | .asinh => div (const 1) (sqrt (add (powr a 2) (const 1)))
  | .acosh => div (const 1) (sqrt (sub (powr a 2) (const 1)))
  | .atanh => div (const 1) (sub (const 1) (powr a 2))
  | .abs => div a (special .abs a)
  | .ln => div (const 1) a

/-- Whether the tree is the variable of the axis. -/
def isVariable (along : Axis) : Expr → Bool
  | var i => Axis.ofPosition? i = some along
  | _ => false

/-- The partial derivative along an axis. -/
def derivative (along : Axis) : Expr → Except TreeFault Expr
  | var i =>
    match Axis.ofPosition? i with
    | some a => .ok (const (if a = along then 1 else 0))
    | none => .error .noAxis
  | e | pi | const _ => .ok (const 0)
  | binary .add f g => do
    let df ← derivative along f
    let dg ← derivative along g
    return add df dg
  | binary .sub f g => do
    let df ← derivative along f
    let dg ← derivative along g
    return sub df dg
  | binary .mul f g => do
    let df ← derivative along f
    let dg ← derivative along g
    return add (mul df g) (mul f dg)
  | binary .div f g => do
    let df ← derivative along f
    let dg ← derivative along g
    return div (sub (mul df g) (mul f dg)) (powr g 2)
  | binary .pow f g =>
    match h : g.constValue? with
    | some c =>
      if isVariable along f then .ok (mul g (powr f (c - 1)))
      else do
        let df ← derivative along f
        return mul (mul df g) (powr f (c - 1))
    | none =>
      if f = e then do
        let dg ← derivative along g
        return mul dg (binary .pow f g)
      else derivative along (power e (mul g (special .ln f)))
  | comp _ _ => .error .openCall
  | special k a => do
    let da ← derivative along a
    return mul da (outer k a)
termination_by f => f.weight
decreasing_by
  all_goals first
    | exact weight_overBaseE_lt (by assumption) (isConst_of_constValue? h)
    | (simp only [weight]; omega)

/-- The axes of the variables whose derivatives make up the derivative along an axis, in the order
in which they are met, and in their places what has no derivative. -/
def metBy (along : Axis) : Expr → List (Except TreeFault Axis)
  | var i =>
    match Axis.ofPosition? i with
    | some a => [.ok a]
    | none => [.error .noAxis]
  | e | pi | const _ => []
  | binary .pow f g =>
    match _h : g.constValue? with
    | some _ => if isVariable along f then [] else metBy along f
    | none => if f = e then metBy along g else metBy along (power e (mul g (special .ln f)))
  | binary .add f g | binary .sub f g | binary .mul f g | binary .div f g =>
    metBy along f ++ metBy along g
  | comp _ _ => [.error .openCall]
  | special _ a => metBy along a
termination_by f => f.weight
decreasing_by
  all_goals first
    | exact weight_overBaseE_lt (by assumption) (isConst_of_constValue? _h)
    | (simp only [weight]; omega)

end Expr

end Fluxion
