import Fluxion.Fault
import Fluxion.Unicode.Digit

/-!
# Fractions as text

A literal is a run of decimal digits of any scripts, perhaps with a point and a second run.
It writes the exact fraction with the digits as numerator and as many factors of ten below as
digits after the point (`value?`), and is read as that fraction unless it has more digits than an
integer is read from (`read`). A fraction is written as its numerator and, unless that is one, its
denominator (`text`), unless one of them has too many digits (`write`).
-/

namespace Fluxion.Literal
set_option autoImplicit false
open Fluxion.Unicode

/-- The values of the decimal digits that a text consists of. -/
def digitValues? : List Char → Option (List Nat)
  | [] => some []
  | c :: rest =>
    match decimalValue? c, digitValues? rest with
    | some d, some values => some (d :: values)
    | _, _ => none

/-- The text up to the first point, and after it if there is one. -/
def cutAtPoint : List Char → List Char × Option (List Char)
  | [] => ([], none)
  | c :: rest =>
    if c = '.' then ([], some rest)
    else let (whole, fraction) := cutAtPoint rest; (c :: whole, fraction)

/-- The values of a non-empty run of digits. -/
def run? (text : List Char) : Option (List Nat) :=
  if text = [] then none else digitValues? text

/-- The fraction that a literal writes. -/
def value? (text : List Char) : Option Rat :=
  match cutAtPoint text with
  | (whole, none) => (run? whole).map fun w => mkRat (Decimal.ofValues w) 1
  | (whole, some fraction) =>
    match run? whole, run? fraction with
    | some w, some f => some (mkRat (Decimal.ofValues (w ++ f)) (Decimal.tens f.length))
    | _, _ => none

/-- The fraction that a literal writes on a line of its own: one line end may follow. -/
def line? (text : List Char) : Option Rat :=
  match text.getLast? with
  | some '\n' => value? text.dropLast
  | _ => value? text

/-- Whether the digits of a literal are few enough to be read, those after the point included. -/
def isReadable (text : List Char) : Bool := text.countP isDecimalDigit ≤ Decimal.maxDigits

/-- The fraction that a line is read as, if it is a literal. -/
def read (text : List Char) : Outcome (Option Rat) :=
  match line? text with
  | none => .ok none
  | some q => if isReadable text then .ok (some q) else .error .tooManyDigits

/-- A fraction as text. -/
def text (q : Rat) : List Char :=
  Decimal.signedDigits q.num ++ if q.den = 1 then [] else '/' :: Decimal.digits q.den

/-- Whether the integers of a fraction have few enough digits to be written. -/
def isWritable (q : Rat) : Bool := Decimal.isWritable q.num && Decimal.isWritable q.den

/-- A fraction as text, if it can be written. -/
def write (q : Rat) : Outcome (List Char) :=
  if isWritable q then .ok (text q) else .error .tooManyDigits

end Fluxion.Literal
