import Fluxion.Calculator.Construct
import Fluxion.Calculator.Registry
import Fluxion.Calculator.Samples
import Fluxion.Calculator.Table

/-!
# Commands

A command takes values and gives a value. The commands on contexts give back the context as it is
then. A command that is given too few, too many or the wrong kinds of values does not match.

A value is *rounded* when it depends on the last digits of routines for doubles: `isRounded` says
which commands give such values.
-/

namespace Fluxion.Calculator
set_option autoImplicit false

/-- A comparison of two values. -/
inductive Comparison where
  | lt | le | gt | ge
  deriving DecidableEq, Repr

/-- What can be asked of any values. -/
inductive ValueCommand where
  | identity | text | shown | double | items | distinct
  | negate | magnitude | equal | differ
  | join (op : Op)
  | compare (relation : Comparison)
  deriving DecidableEq, Repr

/-- What can be asked of trees. -/
inductive TreeCommand where
  | construct (op : Op)
  | power | negate | root | coefficient | base | exponent | convert
  | isConst | isJoined | isNamed
  | derivative | eval | size | precedence | children | build
  deriving DecidableEq, Repr

/-- What can be asked of fractions and polynomials. -/
inductive NumberCommand where
  | fraction | parse | ofDouble | gcd | lcm | isInteger | parts
  | polynomial | evalPolynomial | degree
  deriving DecidableEq, Repr

/-- What can be asked of vectors and matrices. -/
inductive MatrixCommand where
  | pair | triple | matrix | entry | trace | isSquare | isSymmetric
  | determinant | characteristicPolynomial | eval
  deriving DecidableEq, Repr

/-- What can be asked of scalar fields, and of trees as integrands. -/
inductive FieldCommand where
  | read | build | wrap | tree | power | slope | derivative | gradient | hessian
  | eval | evalAt | integrate | midpoint | round
  deriving DecidableEq, Repr

/-- What can be asked of contexts and of the syntax. -/
inductive ContextCommand where
  | create | symbol | function | field | function? | symbol? | has
  | looseness | error
  deriving DecidableEq, Repr

/-- A command of the calculator. -/
inductive Command where
  | value (c : ValueCommand)
  | tree (c : TreeCommand)
  | number (c : NumberCommand)
  | matrix (c : MatrixCommand)
  | field (c : FieldCommand)
  | context (c : ContextCommand)
  deriving DecidableEq, Repr

open Value

/-- The mark of a name: an operation, or a call. -/
def markNamed? (name : List Char) : Option Text.Mark :=
  match String.ofList name with
  | "add" => some (.sign .add)
  | "sub" => some (.sign .sub)
  | "mul" => some (.sign .mul)
  | "div" => some (.sign .div)
  | "pow" => some (.sign .pow)
  | "comp" => some .call
  | _ => none

/-- Whether a value is a tree joined by a mark. -/
def isJoinedBy : Text.Mark → Value → Bool
  | .sign op, .tree f => f.isBinary op
  | .call, .tree (.comp _ _) => true
  | _, _ => false

/-- Whether a value is a call of a named function. -/
def isCallOf (kind : Kind) : Value → Bool
  | .tree f => f.isSpecial kind
  | _ => false

/-- Whether a value is a constant tree. -/
def isConstant : Value → Bool
  | .tree f => f.isConst
  | _ => false

/-- Whether a value is a constant tree of that value. -/
def isConstantOf (w : Value) : Value → Bool
  | .tree (.const c) => same (fractionValue c) w
  | _ => false

/-- A number of variables from zero to three. -/
def dimOf (v : Value) : Outcome Nat := do
  let n ← v.toInt
  if 0 ≤ n ∧ n ≤ 3 then return n.toNat else .error .typeMismatch

/-- Runs a command on any values. -/
def ValueCommand.run : ValueCommand → List Value → Outcome Value
  | identity, [v] => .ok v
  | text, [v] => do return .text (← v.toText)
  | shown, [v] => do return .text (← v.shown)
  | double, [.undefined mark] => .ok (.undefined mark)
  | double, [v] => do return doubleValue (← v.toDouble)
  | items, [v] => do return .list (← v.toItems)
  | distinct, vs =>
    if allSettled vs then .ok (intValue (distinctOf [] vs).length) else .error .typeMismatch
  | negate, [v] => Value.negate v
  | magnitude, [v] => Value.magnitude v
  | equal, [v, w] => .ok (.bool (same v w))
  | differ, [v, w] => .ok (.bool (!same v w))
  | join op, [v, w] => Value.join op v w
  | compare .lt, [v, w] => do return .bool (← isBelow v w)
  | compare .le, [v, w] => do return .bool (← atMost v w)
  | compare .gt, [v, w] => do return .bool (← isBelow w v)
  | compare .ge, [v, w] => do return .bool (← atMost w v)
  | _, _ => .error .typeMismatch

/-- Runs a command on trees. -/
def TreeCommand.run : TreeCommand → List Value → Outcome Value
  | construct op, [v, w] => Value.construct op v w
  | power, [v, w] => constructPower v w
  | negate, [v] => constructNegative v
  | root, [v] => Value.construct .pow v (.tree (.const (1 / 2)))
  | coefficient, [.tree f] => .ok (.tuple [fractionValue f.coefficient.1, .tree f.coefficient.2])
  | coefficient, [v] => .ok (.tuple [fractionValue 1, v])
  | base, [.tree f] => .ok (.tree f.base)
  | base, [v] => .ok v
  | exponent, [.tree f] => .ok (.tree f.exponent)
  | exponent, [_] => .ok (.tree (.const 1))
  | convert, [v] => do return .tree (← v.asTree)
  | isConst, [v] | isConst, [v, .null] => .ok (.bool (isConstant v))
  | isConst, [v, w] => .ok (.bool (isConstantOf w v))
  | isJoined, [v, w] => do
    match markNamed? (← w.toName) with
    | some mark => return .bool (isJoinedBy mark v)
    | none => .error .typeMismatch
  | isNamed, [v, w] => do
    match Kind.ofLetters? (← w.toName) with
    | some kind => return .bool (isCallOf kind v)
    | none => .error .typeMismatch
  | derivative, [v, w] => do return .tree (← derivativeAlong (← v.toTree) w)
  | eval, [v, w] => do return doubleValue (← ofTree ((← v.toTree).eval (← w.toPoint)))
  | size, [v] => do return intValue (← v.toTree).size
  | precedence, [v] => do return intValue (← v.toTree).precedence
  | children, [v] => do
    return .list (← (← v.toTree).children.mapM fun f => do return .text (← ofTree f.print))
  | build, [v] => do return .tree (← buildText {} (intValue 1) v)
  | build, [v, w] => do return .tree (← buildText {} w v)
  | build, [v, w, c] => do return .tree (← buildText (← c.toContext) w v)
  | _, _ => .error .typeMismatch

/-- The fraction of two integers. A zero of any kind is no denominator. -/
def fractionOfInts (num den : Value) : Outcome Value := do
  if den.isZero then .error (.zeroDenominator (← num.readerText))
  else return fractionValue (Rat.divInt (← num.toInt) (← den.toInt))

/-- The exact value of an integer or of a double. -/
def exactValue (v : Value) : Outcome Value :=
  match v.number? with
  | some (.int n) => .ok (fractionValue n)
  | some (.double x) =>
    match Number.finiteValue? x with
    | some q => .ok (fractionValue q)
    | none => .error (if x.isNaN then .notANumber else .tooLarge)
  | _ => .error .typeMismatch

/-- The greatest common divisor of two integers. Zeros of any kind have none. -/
def gcdOfInts (a b : Value) : Outcome Int := do
  if a.isZero && b.isZero then .error .undefinedDivisor
  else return Int.gcd (← a.toInt) (← b.toInt)

/-- Whether a fraction or a double is an integer. -/
def isInteger : Value → Outcome Bool
  | .number (.fraction q) => .ok (q.den = 1)
  | .number (.double x) => .ok ((Number.finiteValue? x).any fun q => q.den = 1)
  | .undefined _ => .ok false
  | _ => .error .unsupported

/-- Numerator and denominator of a fraction. -/
def parts : Value → Outcome Value
  | .number (.fraction q) => .ok (.list [intValue q.num, intValue q.den])
  | _ => .error .unsupported

/-- Runs a command on fractions or polynomials. -/
def NumberCommand.run : NumberCommand → List Value → Outcome Value
  | fraction, [n] => fractionOfInts n (intValue 1)
  | fraction, [n, .null] => exactValue n
  | fraction, [n, d] => fractionOfInts n d
  | parse, [t] => do
    match ← Literal.read (← t.toName) with
    | some q => return fractionValue q
    | none => return .null
  | ofDouble, [v] => do return fractionValue (← fractionOf (← v.toDouble))
  | gcd, [a, b] => do return intValue (← gcdOfInts a b)
  | lcm, [a, b] => do
    let product ← magnitude (← Value.join .mul a b)
    let divisor ← gcdOfInts a b
    return intValue ((← product.toInt) / divisor)
  | isInteger, [v] => do return .bool (← Calculator.isInteger v)
  | parts, [v] => Calculator.parts v
  | polynomial, [] => .ok (.polynomial (Polynomial.ofList coefficients []).coeffs)
  | polynomial, [v] => do
    return .polynomial (Polynomial.ofList coefficients (← v.toItems)).coeffs
  | evalPolynomial, [p, v] => do (← p.toPolynomial).eval coefficients v
  | degree, [p] => do return intValue (← p.toPolynomial).degree
  | _, _ => .error .typeMismatch

/-- Runs a command on vectors or matrices. -/
def MatrixCommand.run : MatrixCommand → List Value → Outcome Value
  | pair, [a, b] => .ok (.vector [a, b])
  | triple, [a, b, c] => .ok (.vector [a, b, c])
  | matrix, [vs, r, c] => do return (← Table.ofList (← vs.toItems) r c).toValue
  | entry, [m, r, c] => do (← Table.ofValue m).get r c
  | trace, [m] => do (← Table.ofValue m).trace
  | isSquare, [m] => do return .bool (← Table.ofValue m).isSquare
  | isSymmetric, [m] => do return .bool (← (← Table.ofValue m).isSymmetric)
  | determinant, [m] => do (← Table.ofValue m).determinant
  | characteristicPolynomial, [m] => do (← Table.ofValue m).characteristicPolynomial
  | eval, [m, p] => do
    let t ← Table.ofValue m
    return (← t.eval (← p.toPoint)).toValue
  | _, _ => .error .typeMismatch

/-- A list of scalar fields as values. -/
def fieldValues (fs : List ScalarField) : List Value := fs.map Value.field

/-- The integral of a scalar field in one variable. -/
def integralOf (v a b steps : Value) : Outcome Value := do
  let f ← v.toField
  if f.dim = 1 then integral f.tree a b steps else .error .unsupported

/-- A number rounded to so many places. No other value can be rounded, but it is scaled first. -/
def roundedTo (v places : Value) : Outcome Value :=
  match v.number?, places.number? with
  | some n, some k => do return .number (← Number.roundPlaces n k)
  | _, _ => do
    let scale ← Value.join .pow (intValue 10) places
    match v.isSequence, scale.int? with
    | true, some n => .error ((repeatFault? .typeMismatch 0 n).getD .typeMismatch)
    | _, _ => do
      let _ ← Value.join .mul v scale
      .error .typeMismatch

/-- Runs a command on scalar fields. -/
def FieldCommand.run : FieldCommand → List Value → Outcome Value
  | read, [d, t] => do return .field (← ScalarField.read {} (← dimOf d) (← t.toSource))
  | build, [d, t, c] => do
    return .field (← ScalarField.read (← c.toContext) (← dimOf d) (← t.toSource))
  | wrap, [d, f] => do return .field ⟨← dimOf d, ← f.toTree⟩
  | tree, [f] => do return .tree (← f.toField).tree
  | power, [f, r] => do
    let f ← f.toField
    return .field ⟨f.dim, f.tree.powr (← r.asConstant)⟩
  | slope, [f, w] => do
    let f ← f.toField
    return .field ⟨f.dim, ← derivativeAlong f.tree w⟩
  | derivative, [f] => do
    let f ← f.toField
    if f.dim = 0 then .error .unsupported
    else match ← f.gradient with
      | [d] => return .field d
      | ds => return .vector (fieldValues ds)
  | gradient, [f] => do return .list (fieldValues (← (← f.toField).gradient))
  | hessian, [f] => do
    let m ← (← f.toField).hessian
    return .matrix (fieldValues m.values) (intValue m.rows) (intValue m.cols)
  | eval, [f, p] => do
    let f ← f.toField
    if f.dim = 0 then .error .unsupported
    else return doubleValue (← f.eval (← p.toPoint))
  | evalAt, [f, p] => do return doubleValue (← (← f.toField).evalAt (← p.toPoint))
  | integrate, [f, a, b] => integralOf f a b (intValue Quadrature.defaultSteps)
  | integrate, [f, a, b, n] => integralOf f a b n
  | midpoint, [f, a, b] => do
    integral (← f.toTree) a b (intValue Quadrature.defaultSteps)
  | midpoint, [f, a, b, n] => do integral (← f.toTree) a b n
  | round, [v, n] => roundedTo v n
  | _, _ => .error .typeMismatch

/-- A value that may be missing. -/
def optional {α : Type} (value : α → Value) : Option α → Value
  | some a => value a
  | none => .null

/-- What an error of reading says: its text, that it is one, its token and its name. -/
def errorParts (cause : ParseError) (token name : Value) : Value :=
  .list [.text cause.message.toList, .bool true, token, name]

/-- What the error of a name says, about the given values. -/
def errorNamed (name : List Char) (about : List Value) : Outcome Value :=
  match String.ofList name, about with
  | "UnknownToken", [v] => do return errorParts (.unknownToken (← v.toText)) v .null
  | "MismatchedParenthesis", [] => .ok (errorParts .mismatchedBracket .null .null)
  | "EmptyInput", [] => .ok (errorParts .emptyInput .null .null)
  | "InvalidInput", [] => .ok (errorParts .invalidInput .null .null)
  | "DimensionMismatch", [v] => do return errorParts (.dimensionMismatch (← v.toText)) .null v
  | "ParsingError", [] => .ok (errorParts (.other []) .null .null)
  | "ParsingError", [v] => do return errorParts (.other (← v.toText)) .null .null
  | _, _ => .error .typeMismatch

/-- Runs a command on contexts; a new context gets the handle `next`. -/
def ContextCommand.run (next : Nat) : ContextCommand → List Value → Outcome Value
  | create, [] => .ok (.context next {})
  | symbol, [.context h names, t, v] => do return .context h (← names.withSymbol t v)
  | function, [.context h names, t, v, n] => do return .context h (← names.withFunction t v n)
  | field, [.context h names, t, v] => do return .context h (← names.withField t v)
  | function?, [.context _ names, t] => do
    let name := match t with
      | .text name => name
      | _ => []
    let entry ← Registry.look names.context.function? t
    return optional (fun e => .tuple [.tree e.tree, ofGiven (names.arityOf name e)]) entry
  | symbol?, [.context _ names, t] => do
    return optional (fun s => doubleValue s.shown) (← Registry.look names.context.symbol? t)
  | has, [.context _ names, t] => do
    let name ← Registry.look (fun name => if names.context.hasName name then some name else none) t
    return .bool name.isSome
  | looseness, [t] => do
    match markNamed? (← t.toName) with
    | some mark => return intValue mark.looseness
    | none => .error .typeMismatch
  | error, t :: about => do errorNamed (← t.toName) about
  | symbol, [_, _, _] | function, [_, _, _, _] | field, [_, _, _] | function?, [_, _]
  | symbol?, [_, _] | has, [_, _] => .error .unsupported
  | _, _ => .error .typeMismatch

/-- Runs a command on values; a new context gets the handle `next`. -/
def Command.run (next : Nat) (command : Command) (args : List Value) : Outcome Value :=
  match command with
  | value c => c.run args
  | tree c => c.run args
  | number c => c.run args
  | matrix c => c.run args
  | field c => c.run args
  | context c => c.run next args

/-- Whether a command gives rounded values, whatever its arguments. -/
def Command.isRounded (command : Command) (args : List Value) : Bool :=
  match command, args with
  | tree .eval, .tree f :: _ => f.usesRoutine
  | matrix .determinant, .matrix values rows cols :: _ =>
    (Table.polynomials? ⟨values, rows, cols⟩).isNone
  | matrix .eval, _ => true
  | field .eval, _ | field .evalAt, _ | field .integrate, _ | field .midpoint, _ => true
  | _, _ => false

end Fluxion.Calculator
