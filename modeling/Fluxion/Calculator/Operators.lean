import Fluxion.Calculator.Demand

/-!
# Operators on values

One operation serves values of all kinds. A tree takes the other operand as a constant; a fraction
joins numbers of exact kinds only; a polynomial takes any other value as a constant polynomial, but
has no quotients and powers; scalar fields join fields in as many variables; texts, lists and
tuples are joined end to end by a sum and repeated by a product with an integer. Of two operands
that could decide, the left one does.

The coefficients of polynomials are joined by the same operation. `join` bounds the recursion by
the depth to which polynomials are nested in each other's coefficients.
-/

namespace Fluxion.Calculator
set_option autoImplicit false

namespace Value

/-- Two numbers joined by an operation. -/
def joinNumbers : Op → Number → Number → Outcome Number
  | .add => Number.add
  | .sub => Number.sub
  | .mul => Number.mul
  | .div => Number.div
  | .pow => Number.pow

/-- The fault of joining a fraction to a value that is no number. -/
def noFraction (v : Value) : Fault := .quoting .notAFraction v.shown

/-- A fraction joined to a value on its right that is no number. -/
def joinFractionLeft (op : Op) (v : Value) : Outcome Value :=
  match op with
  | .pow => do .error (.badExponent (← v.readerText))
  | _ => .error v.noFraction

/-- A fraction joined to a value on its left that is no number. -/
def joinFractionRight (op : Op) (v : Value) : Outcome Value :=
  match op with
  | .pow => .error .typeMismatch
  | _ => .error v.noFraction

/-- What keeps so many items from being repeated so often; `limit` is the fault of a length beyond
all addresses. -/
def repeatFault? (limit : Fault) (items : Nat) (n : Int) : Option Fault :=
  if n < -9223372036854775808 ∨ 9223372036854775807 < n then some .tooLarge
  else if 9223372036854775807 < n * items then some limit
  else if 8589934592 < n * items then some .tooLong
  else none

/-- Some items, as often as an integer says. -/
def repeated {α : Type} (limit : Fault) (items : List α) (n : Int) : Outcome (List α) :=
  match repeatFault? limit items.length n with
  | some fault => .error fault
  | none => .ok (if items.isEmpty then [] else (List.replicate n.toNat items).flatten)

/-- A sequence repeated as often as a value says. -/
def joinRepeated (times : Value) : Value → Outcome Value
  | text t => do return text (← repeated .tooLarge t (← times.toInt))
  | list items => do return list (← repeated .tooLong items (← times.toInt))
  | tuple items => do return tuple (← repeated .tooLong items (← times.toInt))
  | _ => .error .typeMismatch

/-- Whether a value is a text, a list or a tuple. -/
def isSequence : Value → Bool
  | text _ | list _ | tuple _ => true
  | _ => false

/-- Two values joined of which neither is a number, a tree or a polynomial, or only one is and no
fraction. -/
def joinPlain (op : Op) (v w : Value) : Outcome Value :=
  match op, v, w with
  | .pow, field _, field _ => .error .typeMismatch
  | op, field f, field g => do return field (← ScalarField.combine op.apply f g)
  | .add, text a, text b => .ok (text (a ++ b))
  | .add, list a, list b => .ok (list (a ++ b))
  | .add, tuple a, tuple b => .ok (tuple (a ++ b))
  | .mul, v, w => if v.isSequence then joinRepeated w v else joinRepeated v w
  | _, _, _ => .error .typeMismatch

/-- The operation on polynomials, if they have it. -/
def polynomialOp? (R : Coefficients Value) :
    Op → Option (Polynomial Value → Polynomial Value → Outcome (Polynomial Value))
  | .add => some (Polynomial.add R)
  | .sub => some (Polynomial.sub R)
  | .mul => some (Polynomial.mul R)
  | .div | .pow => none

mutual

/-- A value with the opposite sign. -/
def negate : Value → Outcome Value
  | tree f => .ok (tree f.neg)
  | polynomial coeffs => do
    return polynomial (Polynomial.trim isZero (← allNegated coeffs))
  | v =>
    match v.number? with
    | some n => .ok (number n.neg)
    | none => .error .typeMismatch

/-- Values with the opposite sign. -/
def allNegated : List Value → Outcome (List Value)
  | [] => .ok []
  | v :: rest => do
    let w ← negate v
    let ws ← allNegated rest
    return w :: ws

end

/-- Values as coefficients, joined by an operation of their own. -/
def coefficientsBy (inner : Op → Value → Value → Outcome Value) : Coefficients Value where
  ofInt := intValue
  none := doubleValue 0
  add := inner .add
  sub := inner .sub
  mul := inner .mul
  neg := negate
  isZero := isZero

/-- A value as a polynomial. -/
def asPolynomial : Value → Polynomial Value
  | polynomial coeffs => ⟨coeffs⟩
  | v => .constant v

/-- Two values joined of which one is a polynomial and decides. -/
def joinPolynomials (inner : Op → Value → Value → Outcome Value) (op : Op) (v w : Value)
    (otherwise : Outcome Value) : Outcome Value :=
  match polynomialOp? (coefficientsBy inner) op with
  | some onPolynomials => do
    return polynomial (← onPolynomials v.asPolynomial w.asPolynomial).coeffs
  | none => otherwise

/-- Two values joined by an operation, with the coefficients of polynomials joined by `inner`. -/
def joinBy (inner : Op → Value → Value → Outcome Value) (op : Op) (v w : Value) : Outcome Value :=
  match v.counted, w.counted with
  | number a, number b => do return number (← joinNumbers op a b)
  | tree f, _ => do return tree (op.apply f (← w.asTree))
  | number (.fraction _), _ => joinFractionLeft op w
  | polynomial _, other =>
    joinPolynomials inner op v w <|
      match other with
      | tree g => do return tree (op.apply (← v.asTree) g)
      | number (.fraction _) => joinFractionRight op v
      | _ => .error .typeMismatch
  | _, tree g => do return tree (op.apply (← v.asTree) g)
  | _, number (.fraction _) => joinFractionRight op v
  | _, polynomial _ => joinPolynomials inner op v w (.error .typeMismatch)
  | _, _ => joinPlain op v w

/-- Values joined with polynomials nested to at most that depth. -/
def joinNested : Nat → Op → Value → Value → Outcome Value
  | 0 => joinBy fun _ _ _ => .error .typeMismatch
  | depth + 1 => joinBy (joinNested depth)

mutual

/-- How deep polynomials are nested in a value. -/
def nesting : Value → Nat
  | polynomial coeffs => 1 + allNesting coeffs
  | _ => 0

/-- How deep polynomials are nested in some values. -/
def allNesting : List Value → Nat
  | [] => 0
  | v :: rest => max (nesting v) (allNesting rest)

end

/-- Two values joined by an operation. -/
def join (op : Op) (v w : Value) : Outcome Value := joinNested (max v.nesting w.nesting) op v w

/-- The values as coefficients of polynomials. -/
def coefficients : Coefficients Value := coefficientsBy join

/-- A number without its sign. -/
def magnitude (v : Value) : Outcome Value :=
  match v.number? with
  | some n => .ok (number n.abs)
  | none => .error .typeMismatch

/-- Whether one value is below another when they are no containers of one kind. -/
def isBelowPlain (v w : Value) : Outcome Bool :=
  match v.counted, w.counted with
  | number a, number b => a.lt b
  | number (.fraction _), _ => .error w.noFraction
  | _, number (.fraction _) => .error v.noFraction
  | text a, text b => .ok (Text.isBefore a b)
  | _, _ => .error .typeMismatch

mutual

/-- Whether one value is below another. -/
def isBelow : Value → Value → Outcome Bool
  | list a, list b => allBelow a b
  | tuple a, tuple b => allBelow a b
  | v, w => isBelowPlain v w

/-- Whether one list is below another: the first difference decides. -/
def allBelow : List Value → List Value → Outcome Bool
  | _, [] => .ok false
  | [], _ :: _ => .ok true
  | a :: as, b :: bs => if sameItem a b then allBelow as bs else isBelow a b

end

/-- Whether one value is below another or equal to it. -/
def atMost (v w : Value) : Outcome Bool := do return (← isBelow v w) || same v w

end Value

end Fluxion.Calculator
