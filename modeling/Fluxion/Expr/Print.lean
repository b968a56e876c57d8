import Fluxion.Expr.Derivative
import Fluxion.Literal

/-!
# Printing

An operand is bracketed unless it binds tighter than the operation asks: the left operand must
bind at least as tightly as the operation, the right one more tightly. A negative constant binds
more loosely than any operation and a fraction as loosely as a product, so both are bracketed
where they could be misread.

`render` writes every tree; `print` refuses those that are not finished and those with a constant of
too many digits.
-/

namespace Fluxion
set_option autoImplicit false

/-- How tightly an operation binds. -/
def Op.precedence : Op → Int
  | .add | .sub => 10
  | .mul | .div => 20
  | .pow => 30

namespace Expr

/-- How tightly a tree binds when it is written. -/
def precedence : Expr → Int
  | const q => if q < 0 then 5 else if q.den = 1 then 1000 else 20
  | binary op _ _ => op.precedence
  | comp _ _ => 0
  | var _ | e | pi | special _ _ => 1000

/-- The written tree, in brackets unless it binds tighter than `p`. -/
def bracket (p : Int) (f : Expr) (text : List Char) : List Char :=
  if p < f.precedence then text else '(' :: text ++ [')']

/-- The tree as text. What is not finished leaves no trace. -/
def render : Expr → List Char
  | var i =>
    match Axis.ofPosition? i with
    | some a => [a.letter]
    | none => []
  | e => ['e']
  | pi => ['p', 'i']
  | const q => Literal.text q
  | binary op l r =>
    bracket (op.precedence - 1) l l.render ++ op.sign :: bracket op.precedence r r.render
  | comp _ _ => []
  | special k a => k.letters ++ '(' :: bracket 0 a a.render ++ [')']

/-- The first thing in a tree, in the order of writing, that cannot be written. -/
def fault? : Expr → Option TreeFault
  | var i => if (Axis.ofPosition? i).isSome then none else some .noAxis
  | e | pi => none
  | const q => if Literal.isWritable q then none else some .tooManyDigits
  | binary _ l r => l.fault?.or r.fault?
  | comp _ _ => some .openCall
  | special _ a => a.fault?

/-- The tree as text, if it is finished and its constants can be written. -/
def print (f : Expr) : Except TreeFault (List Char) :=
  match f.fault? with
  | some fault => .error fault
  | none => .ok f.render

end Expr

end Fluxion
