import Fluxion.Calculator.Shown
import Fluxion.Calculator.Equality
import Fluxion.Decimal.Reading

/-!
# What a value must be

A command takes its arguments by what they must be: an integer, a double, a text, a point. A value
that is none is a fault: most are mismatches without a text, but a tree names the field that it
cannot take (`asConstant`, `asOperand`), and a number of variables is checked against those allowed.
What is asked of a polynomial, a tree, a field or a context is not supported by any other value.
-/

namespace Fluxion.Calculator
set_option autoImplicit false

namespace Value

/-- The integer that a value must be. -/
def toInt (v : Value) : Outcome Int :=
  match v.int? with
  | some n => .ok n
  | none => .error .typeMismatch

/-- The double that a value counts as; a text counts as the double that it writes. -/
def toDouble (v : Value) : Outcome Float :=
  match v, v.number? with
  | text t, _ =>
    match Decimal.read? t with
    | some x => .ok x
    | none => .error .notANumber
  | _, some n => n.toDouble
  | _, none => .error .typeMismatch

/-- The items of a list, a tuple or a vector, or the characters of a text. -/
def toItems : Value → Outcome (List Value)
  | list items | tuple items | vector items => .ok items
  | text t => .ok (t.map fun c => text [c])
  | _ => .error .typeMismatch

/-- The coordinates of a point. -/
def toPoint (v : Value) : Outcome (List Float) := do (← v.toItems).mapM toDouble

/-- The text that a value must be. -/
def toName : Value → Outcome (List Char)
  | text t => .ok t
  | _ => .error .typeMismatch

/-- The text of an expression, which is taken apart. -/
def toSource : Value → Outcome (List Char)
  | text t => .ok t
  | _ => .error .unsupported

/-- The scalar field that a value must be. -/
def toField : Value → Outcome ScalarField
  | field f => .ok f
  | _ => .error .unsupported

/-- The coefficients of the polynomial that a value must be. -/
def toPolynomial : Value → Outcome (Polynomial Value)
  | polynomial coeffs => .ok ⟨coeffs⟩
  | _ => .error .unsupported

/-- The tree that a value must be. -/
def toTree : Value → Outcome Expr
  | tree f => .ok f
  | _ => .error .unsupported

/-- The tree that a value stands for: a number stands for a constant. -/
def asTree (v : Value) : Outcome Expr :=
  match v, v.number? with
  | tree f, _ => .ok f
  | _, some n => do return .const (← n.toFraction)
  | v, none => .error (.quoting .notAnExpression v.shown)

/-- The fault of a field of a tree that holds a value of another type. -/
def illTyped (name expected : String) (v : Value) : Fault :=
  .quoting (Fault.illTyped name · expected) v.shown

/-- The fraction of a constant: a value of another kind makes the constant ill-typed. -/
def asConstant (v : Value) : Outcome Rat :=
  match v.number?.bind Number.exactFraction? with
  | some q => .ok q
  | none => .error (v.illTyped "value" "Rational")

/-- The operand of a node: a value of another kind makes the node ill-typed. -/
def asOperand (name : String) : Value → Outcome Expr
  | tree f => .ok f
  | v => .error (v.illTyped name "Function")

/-- The number of variables, from one to three, that a value must equal. -/
def asDimension (v : Value) : Outcome Nat :=
  match v.choice? [1, 2, 3] with
  | some n => .ok n.toNat
  | none => do .error (.badCount (← v.readerText))

/-- The names that a context given for reading holds; nothing stands for an empty one. -/
def toContext : Value → Outcome Context
  | context _ names => .ok names.context
  | null => .ok {}
  | _ => .error .unsupported

end Value

end Fluxion.Calculator
