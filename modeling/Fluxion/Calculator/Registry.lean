import Fluxion.Calculator.Demand

/-!
# Registering and reading with values

A name is a text. A function is registered as a tree with a number of variables, which is kept as
it was given; a symbol is registered as the double that its value counts as. What is no name is
registered nowhere, unless its items can be replaced: then it cannot even be looked up.
-/

namespace Fluxion.Calculator
set_option autoImplicit false

namespace Registry
open Value

/-- The registry with a tree registered as a function. -/
def withTree (r : Registry) (name : List Char) (f : Expr) (arity : Nat) (given : Number ⊕ Bool) :
    Outcome Registry := do
  let context ← r.context.withFunction name f arity
  return { context, arities := replace name given r.arities }

/-- The registry with a value registered as a function, which must be a tree. -/
def withFunction (r : Registry) (name function arity : Value) : Outcome Registry := do
  let dim ← arity.asDimension
  match function, arity.given? with
  | tree f, some given => do r.withTree (← name.toName) f dim given
  | tree _, none => .error .typeMismatch
  | v, _ => do .error (.notRegistrable (← v.readerText))

/-- The registry with a scalar field registered as a function. -/
def withField (r : Registry) (name function : Value) : Outcome Registry := do
  let f ← function.toField
  r.withFunction name (tree f.tree) (intValue f.dim)

/-- The registry with a value registered as a symbol. -/
def withSymbol (r : Registry) (name value : Value) : Outcome Registry := do
  let x ← value.toDouble
  if !x.isFinite then .error (.symbolNotFinite (← name.toText) x)
  let context ← r.context.withSymbol (← name.toName) x
  return { r with context }

/-- What is registered under the name that a value is. -/
def look {α : Type} (find : List Char → Option α) : Value → Outcome (Option α)
  | text t => .ok (find t)
  | v => if v.isSettled then .ok none else .error .typeMismatch

end Registry

/-- The tree of a text over a number of axes. -/
def buildText (ctx : Context) (dim text : Value) : Outcome Expr := do
  let n ← dim.asDimension
  build ctx n (← text.toSource)

end Fluxion.Calculator
