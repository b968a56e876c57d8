import Fluxion.Determinant
import Fluxion.ScalarField
import Fluxion.Text.Quoted

/-!
# Values of the calculator

The calculator works on numbers, texts, trees, polynomials, scalar fields, vectors, matrices,
contexts, lists and tuples. A polynomial takes coefficients of any kind. The numbers of rows and
columns of a matrix are kept as they were given.

A context is held by its handle, since registering a name changes it for every holder; beside the
handle stands what it names at the time. What is not a number equals nothing, not even itself, but
a list holds the same one in the same place: each has a mark by which it is told apart.
-/

namespace Fluxion.Calculator
set_option autoImplicit false

/-- What a context names, and the number of variables of each function as it was given. -/
structure Registry where
  context : Context := {}
  arities : List (List Char × (Number ⊕ Bool)) := []

/-- A value of the calculator. -/
inductive Value where
  | null
  | bool (b : Bool)
  | number (n : Number)
  /-- Not a number, told apart by its mark. -/
  | undefined (mark : Nat)
  | text (t : List Char)
  | tree (f : Expr)
  | polynomial (coeffs : List Value)
  | field (f : ScalarField)
  | vector (items : List Value)
  | matrix (values : List Value) (rows cols : Value)
  | context (handle : Nat) (names : Registry)
  | list (items : List Value)
  | tuple (items : List Value)
  deriving Inhabited

/-- The integer `n` as a value. -/
def intValue (n : Int) : Value := .number (.int n)

/-- The double `x` as a value. -/
def doubleValue (x : Float) : Value := .number (.double x)

/-- The fraction `q` as a value. -/
def fractionValue (q : Rat) : Value := .number (.fraction q)

namespace Value

/-- The number that a value counts as: a truth value counts as `0` or `1`. -/
def number? : Value → Option Number
  | number n => some n
  | bool b => some (.int b.toInt)
  | undefined _ => some (.double Decimal.notANumber)
  | _ => none

/-- A value as the number that it counts as, if it does. -/
def counted (v : Value) : Value :=
  match v.number? with
  | some n => number n
  | none => v

/-- The integer that a value counts as. -/
def int? (v : Value) : Option Int :=
  match v.number? with
  | some (.int n) => some n
  | _ => none

/-- Whether a value counts as zero. -/
def isZero (v : Value) : Bool :=
  match v.number? with
  | some n => n.isZero
  | none => false

/-- A number of variables as it was given. -/
def ofGiven : Number ⊕ Bool → Value
  | .inl n => number n
  | .inr b => bool b

/-- A number or a truth value, as what is given for a number of variables. -/
def given? : Value → Option (Number ⊕ Bool)
  | number n => some (.inl n)
  | bool b => some (.inr b)
  | _ => none

mutual

/-- The value with marks from `next` on for what is not a number and has none, and the first mark
that is left. -/
def marked (next : Nat) : Value → Value × Nat
  | number (.double x) =>
    if x.isNaN then (undefined next, next + 1) else (number (.double x), next)
  | polynomial coeffs => let (vs, next) := allMarked next coeffs; (polynomial vs, next)
  | vector items => let (vs, next) := allMarked next items; (vector vs, next)
  | matrix values rows cols =>
    let (vs, next) := allMarked next values; (matrix vs rows cols, next)
  | list items => let (vs, next) := allMarked next items; (list vs, next)
  | tuple items => let (vs, next) := allMarked next items; (tuple vs, next)
  | v => (v, next)

/-- Values with marks from `next` on, and the first mark that is left. -/
def allMarked (next : Nat) : List Value → List Value × Nat
  | [] => ([], next)
  | v :: rest =>
    let (v, next) := marked next v
    let (vs, next) := allMarked next rest
    (v :: vs, next)

end

mutual

/-- The value with every context as it is now. -/
def refreshed (registries : List Registry) : Value → Value
  | context handle names => context handle (registries.getD handle names)
  | polynomial coeffs => polynomial (allRefreshed registries coeffs)
  | vector items => vector (allRefreshed registries items)
  | matrix values rows cols => matrix (allRefreshed registries values) rows cols
  | list items => list (allRefreshed registries items)
  | tuple items => tuple (allRefreshed registries items)
  | v => v

/-- Values with every context as it is now. -/
def allRefreshed (registries : List Registry) : List Value → List Value
  | [] => []
  | v :: rest => refreshed registries v :: allRefreshed registries rest

end

end Value

end Fluxion.Calculator
