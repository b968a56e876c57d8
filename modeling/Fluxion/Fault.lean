import Fluxion.Text.Split
import Fluxion.Expr.Derivative
import Fluxion.Decimal.Text

/-!
# Faults

Everything that can go wrong, by cause. `Fault.message?` is the text of those causes that are
reported with one.
-/

namespace Fluxion
set_option autoImplicit false

/-- What a matrix must be square for. -/
inductive Squareness where
  | trace | symmetry | determinant | characteristicPolynomial
  deriving DecidableEq, Repr

namespace Squareness

/-- The notion as a text names it. -/
def name : Squareness → String
  | trace => "trace"
  | symmetry => "symmetry"
  | determinant => "determinant"
  | characteristicPolynomial => "characteristic polynomial"

end Squareness

/-- Why an operation has no result. -/
inductive Fault where
  | parse (cause : ParseError)
  | tree (cause : TreeFault)
  /-- A fraction of the numerator with the denominator zero. -/
  | zeroDenominator (num : String)
  | divisionByZero
  /-- The greatest common divisor of two zeros. -/
  | undefinedDivisor
  /-- A symbol whose value is no finite number. -/
  | symbolNotFinite (name : List Char) (value : Float)
  | notANumber
  /-- Beyond the range of the doubles. -/
  | tooLarge
  /-- An integer with more digits than are read or written. -/
  | tooManyDigits
  | noPosition
  /-- Numbers of rows and columns that no array has. -/
  | badLayout
  /-- A text, a list or a number of samples too long to be held. -/
  | tooLong
  | notAFraction (shown : String)
  | notAnExpression (shown : String)
  /-- Operands that no operation of the name takes. -/
  | typeMismatch
  /-- What is asked of a value whose kind does not have it. -/
  | unsupported
  /-- A number of variables, or of steps, that is not allowed. -/
  | badCount (shown : String)
  /-- A direction of differentiation that is none of the three axes. -/
  | badDirection (shown : String)
  | notRegistrable (shown : String)
  | badExponent (shown : String)
  /-- Numbers of rows and columns whose product is not the number of entries. -/
  | badShape (count : Nat) (rows cols : String)
  | notSquare (what : Squareness)
  /-- A determinant of polynomials of a size other than two or three. -/
  | badDeterminant (rows cols : String)
  /-- A field of a tree with a value of another type. -/
  | illTyped (field shown expected : String)

namespace ParseError

/-- The text of the error. -/
def message : ParseError → String
  | unknownToken token => "Token: " ++ String.ofList token ++ " is not valid"
  | mismatchedBracket => "Mismatched Parenthesis"
  | emptyInput => "Input is empty"
  | dimensionMismatch name =>
    "Can't use " ++ String.ofList name ++ " in a lower dimension function"
  | invalidInput => "Invalid input"
  | other text => String.ofList text

end ParseError

namespace Fault

/-- An integer as text. -/
def integerText (n : Int) : String := String.ofList (Decimal.signedDigits n)

/-- The text of a fault, if it is reported with one. -/
def message? : Fault → Option String
  | parse cause => some cause.message
  | tree .openCall => some "composition marker in a finished tree"
  | tree .noAxis | tree .tooLarge | tree .tooManyDigits => none
  | zeroDenominator num => some ("Rational(" ++ num ++ ", 0)")
  | undefinedDivisor => some "gcd(0, 0) is undefined"
  | symbolNotFinite name value =>
    some ("symbol " ++ String.ofList name ++ " must be finite, got " ++ Decimal.exactText value)
  | notAFraction shown => some ("cannot use " ++ shown ++ " as a Rational")
  | notAnExpression shown => some ("cannot use " ++ shown ++ " as a Function")
  | badCount shown | badDirection shown | notRegistrable shown | badExponent shown => some shown
  | badShape count rows cols =>
    some ("(" ++ integerText count ++ ", " ++ rows ++ ", " ++ cols ++ ")")
  | notSquare what => some (what.name ++ " of a non-square matrix")
  | badDeterminant rows cols =>
    some ("symbolic determinant of a " ++ rows ++ "x" ++ cols ++ " matrix")
  | illTyped field shown expected => some ("." ++ field ++ " = " ++ shown ++ " ? " ++ expected)
  | divisionByZero | notANumber | tooLarge | tooManyDigits | noPosition | badLayout | tooLong
  | typeMismatch | unsupported => none

/-- Whether a text is to blame for being no expression. -/
def isParse : Fault → Bool
  | parse _ => true
  | _ => false

end Fault

/-- The result of an operation, or why there is none. -/
abbrev Outcome (α : Type) := Except Fault α

/-- What keeps an operation from having a result, if anything does. -/
def faultOf? {α : Type} : Outcome α → Option Fault
  | .ok _ => none
  | .error fault => some fault

/-- The outcome of an operation on trees. -/
def ofTree {α : Type} : Except TreeFault α → Outcome α
  | .ok a => .ok a
  | .error .tooLarge => .error .tooLarge
  | .error .tooManyDigits => .error .tooManyDigits
  | .error .noAxis => .error .noPosition
  | .error cause => .error (.tree cause)

/-- The fault that quotes a text, or what keeps the text from being written. -/
def Fault.quoting (fault : String → Fault) : Outcome (List Char) → Fault
  | .ok text => fault (String.ofList text)
  | .error missing => missing

end Fluxion
