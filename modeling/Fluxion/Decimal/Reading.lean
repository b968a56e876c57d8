import Fluxion.Decimal.Binary64
import Fluxion.Unicode.Blank
import Fluxion.Unicode.Digit

/-!
# Reading doubles

A double is written with digits, perhaps a point and perhaps an exponent, or as `inf`,
`infinity` or `nan` in letters of either case, all perhaps after a sign. Blanks around it do not
count, and an underscore may stand between two digits. It reads as the nearest double; what is
too large reads as an infinity.

A text that holds more than ASCII is first brought to ASCII: the decimal digits of all scripts
count as digits and the blanks of all scripts as blanks, and any other character spoils it.
-/

namespace Fluxion.Decimal
set_option autoImplicit false
open Fluxion.Unicode

/-- The value of an ASCII digit. -/
def digitValue? (c : Char) : Option Nat :=
  if '0' ≤ c ∧ c ≤ '9' then some (c.toNat - 48) else none

/-- A character brought to ASCII. -/
def asciiChar? (c : Char) : Option Char :=
  if c.toNat < 127 then some c
  else if isBlank c then some ' '
  else (decimalValue? c).map digitChar

/-- A text brought to ASCII. -/
def ascii? (text : List Char) : Option (List Char) :=
  if text.all fun c => decide (c.toNat < 128) then some text else text.mapM asciiChar?

/-- Whether a character is an ASCII blank. -/
def isSpace (c : Char) : Bool := c = ' ' || (9 ≤ c.toNat && c.toNat ≤ 13)

/-- The text without the blanks around it. -/
def stripped (text : List Char) : List Char :=
  ((text.dropWhile isSpace).reverse.dropWhile isSpace).reverse

/-- The text after the character `before`, without its underscores, each of which must stand
between two digits. -/
def joined? (before : Char) : List Char → Option (List Char)
  | [] => some []
  | '_' :: c :: rest =>
    if (digitValue? before).isSome ∧ (digitValue? c).isSome then (joined? c rest).map (c :: ·)
    else none
  | ['_'] => none
  | c :: rest => (joined? c rest).map (c :: ·)

/-- The leading digits of a text, as values, and the rest. -/
def spanDigits : List Char → List Nat × List Char
  | [] => ([], [])
  | c :: rest =>
    match digitValue? c with
    | some d => let (values, tail) := spanDigits rest; (d :: values, tail)
    | none => ([], c :: rest)

/-- A sign at the front of a text: whether it is a minus, and the rest. -/
def spanSign : List Char → Bool × List Char
  | '-' :: rest => (true, rest)
  | '+' :: rest => (false, rest)
  | text => (false, text)

/-- The exponent that a text writes after its digits; none is zero. -/
def exponent? : List Char → Option Int
  | [] => some 0
  | c :: rest =>
    if c = 'e' ∨ c = 'E' then
      let (negative, tail) := spanSign rest
      match spanDigits tail with
      | (d :: values, []) =>
        let n : Int := ofValues (d :: values)
        some (if negative then -n else n)
      | _ => none
    else none

/-- The double nearest to `n * 10 ^ k`, unless it is out of range. Exponents far beyond the
range of the doubles are not expanded. -/
def ofScaled? (n : Nat) (k : Int) : Option Float :=
  if n = 0 then some 0
  else
    let size := k + (length n : Int)
    if 400 < size then none
    else if size < -400 then some 0
    else (ratioBits? (n * tens k) (tens (-k))).map fun bits => Float.ofBits bits.toUInt64

/-- The positive infinity. -/
def infinity : Float := Float.ofBits 0x7FF0000000000000

/-- Not a number. -/
def notANumber : Float := Float.ofBits 0x7FF8000000000000

/-- The double that a word writes. -/
def word? (text : List Char) : Option Float :=
  match String.ofList (text.map Char.toLower) with
  | "inf" | "infinity" => some infinity
  | "nan" => some notANumber
  | _ => none

/-- The double that digits write. -/
def digits? (text : List Char) : Option Float :=
  let (whole, tail) := spanDigits text
  let (fraction, tail) := match tail with
    | '.' :: rest => spanDigits rest
    | rest => ([], rest)
  if whole = [] ∧ fraction = [] then none
  else (exponent? tail).map fun k =>
    (ofScaled? (ofValues (whole ++ fraction)) (k - (fraction.length : Int))).getD infinity

/-- The double that a text writes. -/
def read? (text : List Char) : Option Float := do
  let (negative, tail) := spanSign (← joined? ' ' (stripped (← ascii? text)))
  let x ← (word? tail).or (digits? tail)
  return if negative then -x else x

end Fluxion.Decimal
