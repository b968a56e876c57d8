import Fluxion.Calculator.Operators

/-!
# Constructors on values

The constructors of trees apply their rules to any values: a value that is no tree comes through
where a rule drops or returns it, and makes a node ill-typed where one is built. Equal values that
are no trees fall under the rules for equal operands.

The direction of a derivative is a tuple equal to that of an axis. Its components become constants
where the derivative meets a variable, so there they must be of an exact kind.
-/

namespace Fluxion.Calculator
set_option autoImplicit false

namespace Value

/-- The fault of a node whose left operand is no tree. -/
def badLeft (v : Value) : Fault := v.illTyped "lhs" "Function"

/-- The fault of a node whose right operand is no tree. -/
def badRight (v : Value) : Fault := v.illTyped "rhs" "Function"

/-- The constant `c` times a value. -/
def scaled (c : Rat) : Value → Outcome Value
  | tree f => .ok (tree (Expr.scale c f))
  | v =>
    if c = 0 then .ok (tree (.const 0)) else if c = 1 then .ok v else .error v.badRight

/-- A value divided by a tree. -/
def dividedBy (v : Value) (g : Expr) : Outcome Value :=
  match v with
  | tree f => .ok (tree (f.div g))
  | v => if g = .const 1 then .ok v else .error v.badLeft

/-- A value that is no tree times a tree. -/
def timesTree (v : Value) : Expr → Outcome Value
  | .const c => scaled c v
  | .binary .div a b => do dividedBy (← timesTree v a) b
  | .binary .mul (.const d) h => do scaled d (← timesTree v h)
  | _ => .error v.badLeft

/-- A tree times a value that is no tree. -/
def treeTimes (v : Value) : Expr → Outcome Value
  | .const c => scaled c v
  | .binary .mul (.const c) h => do scaled c (← treeTimes v h)
  | _ => .error v.badRight

/-- A value that is no tree joined to a tree on its right. -/
def constructLeft (op : Op) (v : Value) (g : Expr) : Outcome Value :=
  match op with
  | .add | .sub => if g = .const 0 then .ok v else .error v.badLeft
  | .mul => timesTree v g
  | .div => dividedBy v g
  | .pow =>
    if g = .const 0 then .ok (tree (.const 1))
    else if g = .const 1 then .ok v
    else .error v.badLeft

/-- A value that is no tree joined to a tree on its left. -/
def constructRight (op : Op) (f : Expr) (w : Value) : Outcome Value :=
  match op with
  | .add => if f = .const 0 then .ok w else .error w.badRight
  | .sub => .error w.badRight
  | .mul => treeTimes w f
  | .div => if f = .const 0 then .ok (tree (.const 0)) else .error w.badRight
  | .pow => if f = .const 1 then .ok (tree (.const 1)) else .error w.badRight

/-- Two values joined of which neither is a tree. -/
def constructPlain (op : Op) (v w : Value) : Outcome Value :=
  match op with
  | .add => .error (if same v w then v.badRight else v.badLeft)
  | .sub => if same v w then .ok (tree (.const 0)) else .error v.badLeft
  | .div => if same v w then .ok (tree (.const 1)) else .error v.badLeft
  | .mul | .pow => .error v.badLeft

/-- Two values joined by the constructor of an operation. -/
def construct (op : Op) : Value → Value → Outcome Value
  | tree f, tree g => .ok (tree (op.apply f g))
  | tree f, w => constructRight op f w
  | v, tree g => constructLeft op v g
  | v, w => constructPlain op v w

/-- A value to a constant exponent. -/
def constructPower (v r : Value) : Outcome Value := do
  construct .pow v (tree (.const (← r.asConstant)))

/-- A value with the opposite sign, by the constructor. -/
def constructNegative : Value → Outcome Value
  | tree f => .ok (tree f.neg)
  | v => .error v.badRight

/-- The axis of a direction. -/
def axisOf? (direction : List Value) : Option Axis :=
  Axis.all.find? fun a =>
    allSame direction (Axis.all.map fun b => intValue (if a = b then 1 else 0))

/-- The fault of a variable of the axis `a` met along a direction with such components. -/
def componentFault? (direction : List Value) (a : Axis) : Option Fault :=
  match direction[a.index]?.map asConstant with
  | some (.error fault) => some fault
  | _ => none

/-- What keeps a tree from being differentiated along a direction with such components. -/
def directionFault? (direction : List Value) (along : Axis) (f : Expr) : Option Fault :=
  if Axis.all.all fun a => (componentFault? direction a).isNone then none
  else (f.metBy along).findSome? fun met =>
    match ofTree met with
    | .ok a => componentFault? direction a
    | .error fault => some fault

/-- The derivative of a tree along a direction. -/
def derivativeAlong (f : Expr) (direction : Value) : Outcome Expr := do
  let components ← direction.toItems
  match axisOf? components with
  | none => .error (.quoting .badDirection (tuple components).shown)
  | some along =>
    match directionFault? components along f with
    | some fault => .error fault
    | none => ofTree (f.derivative along)

end Value

end Fluxion.Calculator
