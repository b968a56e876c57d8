import Fluxion.Expr.Derivative
import Fluxion.Decimal.Reading

/-!
# Evaluation

A tree is evaluated in any arithmetic that has the constants, the operations and the named
functions; operands come before the operation that joins them, the left one first. The
arithmetic at work is that of the doubles, where a constant is rounded to the nearest double.

A tree is evaluated at many points at once in the arithmetic of samples, which tells the values that
are the same at all points from those that vary.
-/

namespace Fluxion
set_option autoImplicit false

/-- What it takes to evaluate trees in `α`. -/
structure Arithmetic (α : Type) where
  const : Rat → Except TreeFault α
  e : α
  pi : α
  binary : Op → α → α → α
  special : Kind → α → α

namespace Expr

/-- The value of a tree at a point. -/
def evalIn {α : Type} (arithmetic : Arithmetic α) (point : List α) : Expr → Except TreeFault α
  | var i =>
    match itemAt? point i with
    | some v => .ok v
    | none => .error .noAxis
  | e => .ok arithmetic.e
  | pi => .ok arithmetic.pi
  | const q => arithmetic.const q
  | binary op l r => do
    let a ← evalIn arithmetic point l
    let b ← evalIn arithmetic point r
    return arithmetic.binary op a b
  | comp l r => do
    let _ ← evalIn arithmetic point l
    let _ ← evalIn arithmetic point r
    .error .openCall
  | special k a => do
    let v ← evalIn arithmetic point a
    return arithmetic.special k v

end Expr

/-- A value that is the same at all of many points, or varies from point to point. -/
inductive Sample (α : Type) where
  | fixed (v : α)
  | varying (f : α → α)

namespace Sample
variable {α : Type}

/-- The value at a point. -/
def valueAt (s : Sample α) (x : α) : α :=
  match s with
  | fixed v => v
  | varying f => f x

/-- A power at many points. An exponent that varies from point to point has powers of its own. -/
def power (arithmetic : Arithmetic α) (varyingPower : α → α → α) : Sample α → Sample α → Sample α
  | fixed a, fixed b => fixed (arithmetic.binary .pow a b)
  | varying f, fixed b => varying fun x => arithmetic.binary .pow (f x) b
  | a, varying g => varying fun x => varyingPower (a.valueAt x) (g x)

/-- An operation at many points. -/
def binary (arithmetic : Arithmetic α) (varyingPower : α → α → α) (op : Op) (a b : Sample α) :
    Sample α :=
  match op, a, b with
  | .pow, a, b => power arithmetic varyingPower a b
  | op, fixed a, fixed b => fixed (arithmetic.binary op a b)
  | op, a, b => varying fun x => arithmetic.binary op (a.valueAt x) (b.valueAt x)

/-- A named function at many points. -/
def special (arithmetic : Arithmetic α) (k : Kind) : Sample α → Sample α
  | fixed a => fixed (arithmetic.special k a)
  | varying f => varying fun x => arithmetic.special k (f x)

/-- The arithmetic at many points, with the powers of exponents that vary. -/
def arithmetic (arithmetic : Arithmetic α) (varyingPower : α → α → α) :
    Arithmetic (Sample α) where
  const q := do return fixed (← arithmetic.const q)
  e := fixed arithmetic.e
  pi := fixed arithmetic.pi
  binary := binary arithmetic varyingPower
  special := special arithmetic

end Sample

namespace Doubles

/-- A power of doubles. The exponents of the reciprocal, the square root and the square stand
for these operations, which treat signed zeros and infinities in their own way. -/
def power (a b : Float) : Float :=
  if b == -1 then 1 / a
  else if b == 0.5 then a.sqrt
  else if b == 2 then a * a
  else a.pow b

/-- An operation on doubles. -/
def binary : Op → Float → Float → Float
  | .add => (· + ·)
  | .sub => (· - ·)
  | .mul => (· * ·)
  | .div => (· / ·)
  | .pow => power

/-- A named function on doubles; those without a routine are reciprocals. -/
def special : Kind → Float → Float
  | .sin => Float.sin
  | .cos => Float.cos
  | .tan => Float.tan
  | .cot => fun v => 1 / v.tan
  | .sec => fun v => 1 / v.cos
  | .csc => fun v => 1 / v.sin
  | .asin => Float.asin
  | .acos => Float.acos
  | .atan => Float.atan
  | .sinh => Float.sinh
  | .cosh => Float.cosh
  | .tanh => Float.tanh
  | .coth => fun v => 1 / v.tanh
  | .sech => fun v => 1 / v.cosh
  | .csch => fun v => 1 / v.sinh
  | .asinh => Float.asinh
  | .acosh => Float.acosh
  | .atanh => Float.atanh
  | .abs => Float.abs
  | .ln => Float.log

/-- A constant as the nearest double. -/
def const (q : Rat) : Except TreeFault Float :=
  match Decimal.ofRat? q with
  | some x => .ok x
  | none => .error .tooLarge

/-- The double nearest to the base of the natural logarithm. -/
def e : Float := Float.ofBits 0x4005BF0A8B145769

/-- The double nearest to the ratio of a circle to its diameter. -/
def pi : Float := Float.ofBits 0x400921FB54442D18

/-- The arithmetic of the doubles. -/
def arithmetic : Arithmetic Float := ⟨const, e, pi, binary, special⟩

/-- The arithmetic of doubles at many points. Only an exponent that is the same at all of them
stands for the reciprocal, the square root or the square. -/
def samples : Arithmetic (Sample Float) := Sample.arithmetic arithmetic Float.pow

end Doubles

namespace Expr

/-- The value of a tree at a point of doubles. -/
def eval (point : List Float) (f : Expr) : Except TreeFault Float :=
  evalIn Doubles.arithmetic point f

/-- The values of a tree at many points of the first axis, as a function; the other coordinates are
zero. -/
def sampler {α : Type} (arithmetic : Arithmetic (Sample α)) (zero : α) (f : Expr) :
    Except TreeFault (α → α) := do
  let rest : Sample α := .varying fun _ => zero
  return (← evalIn arithmetic [.varying id, rest, rest] f).valueAt

/-- Whether the value of a tree depends on the routines for powers and named functions. -/
def usesRoutine : Expr → Bool
  | var _ | e | pi | const _ => false
  | binary .pow _ _ | special _ _ => true
  | binary _ l r | comp l r => l.usesRoutine || r.usesRoutine

end Expr

end Fluxion
