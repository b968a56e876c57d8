import Fluxion.Context
import Fluxion.Literal
import Fluxion.Power

/-!
# Numbers

Integers of any size, doubles, and exact fractions. An integer joins a double as the nearest
double and a fraction exactly; a double and a fraction do not join, except that they can be
told apart. The quotient of two integers is the nearest double.
-/

namespace Fluxion
set_option autoImplicit false

/-- A number of one of three kinds. -/
inductive Number where
  | int (n : Int)
  | double (x : Float)
  | fraction (q : Rat)
  deriving Inhabited

namespace Number

/-- An integer as a double. -/
def doubleOfInt (n : Int) : Outcome Float :=
  match Decimal.ofInt? n with
  | some x => .ok x
  | none => .error .tooLarge

/-- The double nearest to a number. -/
def toDouble : Number → Outcome Float
  | int n => doubleOfInt n
  | double x => .ok x
  | fraction q =>
    match Decimal.ofRat? q with
    | some x => .ok x
    | none => .error .tooLarge

/-- A number as it is written for a reader. -/
def text : Number → Outcome (List Char)
  | int n => Literal.write n
  | double x => .ok (Decimal.exactText x).toList
  | fraction q => Literal.write q

/-- A number as it is written to be read back. -/
def shown : Number → Outcome (List Char)
  | fraction q => do
    let num ← Literal.write q.num
    let den ← Literal.write q.den
    return "Rational(".toList ++ num ++ ", ".toList ++ den ++ [')']
  | n => n.text

/-- The fault of joining a double to a fraction. -/
def noFraction (x : Float) : Fault := .notAFraction (Decimal.exactText x)

/-- Two numbers joined by an operation that all three kinds have. -/
def join (onInt : Int → Int → Int) (onDouble : Float → Float → Float)
    (onFraction : Rat → Rat → Rat) : Number → Number → Outcome Number
  | int a, int b => .ok (int (onInt a b))
  | int a, double y => do
    let x ← doubleOfInt a
    return double (onDouble x y)
  | double x, int b => do
    let y ← doubleOfInt b
    return double (onDouble x y)
  | double x, double y => .ok (double (onDouble x y))
  | fraction a, fraction b => .ok (fraction (onFraction a b))
  | fraction a, int b => .ok (fraction (onFraction a b))
  | int a, fraction b => .ok (fraction (onFraction a b))
  | fraction _, double y => .error (noFraction y)
  | double x, fraction _ => .error (noFraction x)

/-- The sum of two numbers. -/
def add : Number → Number → Outcome Number := join (· + ·) (· + ·) (· + ·)

/-- The difference of two numbers. -/
def sub : Number → Number → Outcome Number := join (· - ·) (· - ·) (· - ·)

/-- The product of two numbers. -/
def mul : Number → Number → Outcome Number := join (· * ·) (· * ·) (· * ·)

/-- A number with the opposite sign. -/
def neg : Number → Number
  | int n => int (-n)
  | double x => double (-x)
  | fraction q => fraction (-q)

/-- A number without its sign. -/
def abs : Number → Number
  | int n => int n.natAbs
  | double x => double x.abs
  | fraction q => fraction (if q < 0 then -q else q)

/-- The quotient of two doubles. -/
def divDoubles (x y : Float) : Outcome Number :=
  if y == 0 then .error .divisionByZero else .ok (double (x / y))

/-- The quotient of two fractions. -/
def divFractions (a b : Rat) : Outcome Number :=
  if b = 0 then .error .divisionByZero else .ok (fraction (a / b))

/-- The double nearest to the quotient of two integers; a zero takes the sign of the quotient. -/
def divInts (a b : Int) : Outcome Number :=
  if b = 0 then .error .divisionByZero
  else match Decimal.ofRat? (Rat.divInt a b) with
    | none => .error .tooLarge
    | some x => .ok (double (if x == 0 ∧ (a < 0) ≠ (b < 0) then -0.0 else x))

/-- The quotient of two numbers. -/
def div : Number → Number → Outcome Number
  | int a, int b => divInts a b
  | int a, double y => do divDoubles (← doubleOfInt a) y
  | double x, int b => do divDoubles x (← doubleOfInt b)
  | double x, double y => divDoubles x y
  | fraction a, fraction b => divFractions a b
  | fraction a, int b => divFractions a b
  | int a, fraction b => divFractions a b
  | fraction _, double y => .error (noFraction y)
  | double x, fraction _ => .error (noFraction x)

/-- The power of two doubles; a result that is no double is refused. -/
def powDoubles (x y : Float) : Outcome Number :=
  let r := x.pow y
  if x == 0 ∧ y < 0 then .error .divisionByZero
  else if !x.isFinite ∨ !y.isFinite ∨ r.isFinite then .ok (double r)
  else if (x.abs.pow y).isFinite then .error .typeMismatch
  else .error .tooLarge

/-- The power of two numbers. Only integers are exponents of fractions. -/
def pow : Number → Number → Outcome Number
  | int a, int b => do
    if 0 ≤ b then return int (intPower a b.toNat)
    else powDoubles (← doubleOfInt a) (← doubleOfInt b)
  | int a, double y => do powDoubles (← doubleOfInt a) y
  | double x, int b => do powDoubles x (← doubleOfInt b)
  | double x, double y => powDoubles x y
  | fraction a, int b =>
    if a = 0 ∧ b < 0 then .error .divisionByZero else .ok (fraction (fractionPower a b))
  | fraction _, b => .error (.quoting .badExponent b.text)
  | _, fraction _ => .error .typeMismatch

/-- The exact value of a finite double. -/
def finiteValue? (x : Float) : Option Rat :=
  match Decimal.decode x with
  | .finite negative m q =>
    some (if negative then -Decimal.scaledRat m q else Decimal.scaledRat m q)
  | _ => none

/-- Whether two numbers are equal. A double and a fraction never are. -/
def eq : Number → Number → Bool
  | int a, int b => a = b
  | int a, double y => finiteValue? y = some (a : Rat)
  | double x, int b => finiteValue? x = some (b : Rat)
  | double x, double y => x == y
  | fraction a, fraction b => a = b
  | fraction a, int b => a = b
  | int a, fraction b => (a : Rat) = b
  | fraction _, double _ | double _, fraction _ => false

/-- Whether an integer is below a double. -/
def intBelow (a : Int) (y : Float) : Bool :=
  match finiteValue? y with
  | some b => decide ((a : Rat) < b)
  | none => decide (0 < y)

/-- Whether an integer is above a double. -/
def intAbove (a : Int) (y : Float) : Bool :=
  match finiteValue? y with
  | some b => decide (b < (a : Rat))
  | none => decide (y < 0)

/-- Whether one number is below another. -/
def lt : Number → Number → Outcome Bool
  | int a, int b => .ok (decide (a < b))
  | int a, double y => .ok (intBelow a y)
  | double x, int b => .ok (intAbove b x)
  | double x, double y => .ok (decide (x < y))
  | fraction a, fraction b => .ok (decide (a < b))
  | fraction a, int b => .ok (decide (a < (b : Rat)))
  | int a, fraction b => .ok (decide ((a : Rat) < b))
  | fraction _, double y => .error (noFraction y)
  | double x, fraction _ => .error (noFraction x)

/-- Whether a number is an exact fraction. -/
def isFraction : Number → Bool
  | fraction _ => true
  | int _ | double _ => false

/-- Whether a number is zero. -/
def isZero (n : Number) : Bool := n.eq (int 0)

/-- The integer nearest to a number, a tie to the even one. -/
def round : Number → Outcome Int
  | int n => .ok n
  | double x =>
    match Decimal.decode x with
    | .nan => .error .notANumber
    | .infinite _ => .error .tooLarge
    | .finite negative m q =>
      let size : Nat := Decimal.roundDiv (m * Decimal.twos q) (Decimal.twos (-q))
      .ok (if negative then -size else size)
  | fraction _ => .error .typeMismatch

/-- A number rounded to that many decimal places; a negative count rounds before the point. -/
def roundPlaces (value places : Number) : Outcome Number := do
  let scale ← pow (int 10) places
  let scaled ← mul value scale
  div (int (← round scaled)) scale

/-- The fraction that a number stands for. -/
def toFraction : Number → Outcome Rat
  | int n => .ok n
  | double x => fractionOf x
  | fraction q => .ok q

/-- The fraction that is a number of an exact kind. -/
def exactFraction? : Number → Option Rat
  | int n => some n
  | double _ => none
  | fraction q => some q

end Number

end Fluxion
