import Fluxion.Calculator.Operators
import Fluxion.Quadrature

/-!
# The midpoint rule on values

The ends of the interval and the number of steps may be any values that can be subtracted and
divided. The samples lie half a step off the multiples of the step, and these offsets are
doubles: a step that is an exact fraction or a tree does not join them, and the fault shows
the offsets.

Offsets are shown in a row, aligned to the right, or with an exponent and equally many digits when
the last is more than a thousand times the first. Of more than a thousand, the first and the last
three are shown and their number is added. Counted by a fraction, they are shown one by one without
alignment. A line is broken before it grows past the width.
-/

namespace Fluxion.Calculator
set_option autoImplicit false

/-- Offsets of samples, in steps: half a step less than `1, 2, ...`. -/
structure Offsets where
  count : Nat
  /-- Whether they were counted by a fraction. -/
  exact : Bool

namespace Offsets

/-- The most offsets that are shown in full. -/
def threshold : Nat := 1000

/-- The numbers, from one, of the offsets that are shown, in two groups; between them some may be
left out. -/
def groups (o : Offsets) : List Nat × List Nat :=
  if o.count ≤ threshold then ((List.range o.count).map (· + 1), [])
  else ([1, 2, 3], [o.count - 2, o.count - 1, o.count])

/-- The digits of the `k`-th offset before and after the point of the exponent form. -/
def mantissa (k : Nat) : List Char × List Char := (Decimal.digits (10 * k - 5)).splitAt 1

/-- The exponent of the `k`-th offset, with a sign and at least two digits. -/
def exponent (k : Nat) : List Char :=
  match (Decimal.digits (10 * k - 5)).length with
  | 0 | 1 => "e-01".toList
  | n + 2 => "e+".toList ++ List.replicate (2 - (Decimal.digits n).length) '0' ++ Decimal.digits n

/-- The `k`-th offset in exponent form, with at least `places` digits after the point. -/
def scientific (places k : Nat) : List Char :=
  let (whole, fraction) := mantissa k
  whole ++ '.' :: fraction ++ List.replicate (places - fraction.length) '0' ++ exponent k

/-- The `k`-th offset in positional form, aligned to `width` digits before the point. -/
def positional (width k : Nat) : List Char :=
  let whole := Decimal.digits (k - 1)
  List.replicate (width - whole.length) ' ' ++ whole ++ ['.', '5']

/-- How the offsets are written. -/
def form (o : Offsets) : Nat → List Char :=
  let (front, back) := o.groups
  let shown := front ++ back
  if o.exact then positional 0
  else if o.count ≤ 500 then positional (Decimal.digits (o.count - 1)).length
  else scientific ((shown.map fun k => (mantissa k).2.length).foldl max 0)

/-- The words that are shown. -/
def words (o : Offsets) : List (List Char) :=
  let (front, back) := o.groups
  front.map o.form ++ (if back = [] then [] else ["...".toList]) ++ back.map o.form

/-- The width that the words of a line stay within. -/
def wordsWidth : Nat := 73

/-- The width that a whole line stays within. -/
def lineWidth : Nat := 75

/-- The blanks before a line but the first. -/
def indent : List Char := List.replicate 7 ' '

/-- The finished lines and the last line after one more word. -/
def extend (text : List Char × List Char) (word : List Char) : List Char × List Char :=
  let (done, line) := text
  if line.length + word.length > wordsWidth ∧ line.length > indent.length then
    (done ++ (line.reverse.dropWhile (· = ' ')).reverse ++ ['\n'], indent ++ word)
  else (done, line ++ word)

/-- The words in lines, with commas between them. -/
def lines : List Char × List Char → List (List Char) → List Char
  | (done, line), [] => done ++ line
  | text, [word] => let (done, line) := extend text word; done ++ line
  | text, word :: rest =>
    let (done, line) := extend text word
    lines (done, line ++ [',', ' ']) rest

/-- What is added after the words. -/
def additions (o : Offsets) : List (List Char) :=
  let shape := "shape=(".toList ++ Decimal.digits o.count ++ ",)".toList
  (if threshold < o.count then [shape] else []) ++
    (if o.exact then ["dtype=object".toList]
      else if o.count = 0 then ["dtype=float64".toList] else [])

/-- The length of the last line of a text. -/
def lastLineLength (text : List Char) : Nat := (text.reverse.takeWhile (· ≠ '\n')).length

/-- The offsets as text. -/
def text (o : Offsets) : List Char :=
  let body := "array([".toList ++ (lines ([], indent) o.words).drop indent.length ++ [']']
  match o.additions with
  | [] => body ++ [')']
  | added =>
    let body := body ++ [',']
    let added := List.intercalate [',', ' '] added ++ [')']
    let gap := if lastLineLength body + added.length + 1 > lineWidth
      then '\n' :: List.replicate 6 ' ' else [' ']
    body ++ gap ++ added

end Offsets

namespace Value

/-- The samples of a number of steps. -/
def offsetsOf (steps : Number) : Outcome Offsets := do
  let count : Int ← match steps with
    | .int n => pure n
    | .double x => ceiling (x + 1 - 1)
    | .fraction q => do ceiling (← (Number.fraction q).toDouble)
  if 9223372036854775807 ≤ count then .error .badLayout
  else if 4294967296 < count then .error .tooLong
  else return ⟨count.toNat, steps.isFraction⟩
where
  /-- The least integer that a double does not exceed. -/
  ceiling (x : Float) : Outcome Int :=
    match Number.finiteValue? x with
    | some q => .ok q.ceil
    | none => .error .badLayout

/-- The midpoint rule for a tree with a number of steps of width `h` from `a` on. -/
def stepSum (f : Expr) (a steps h : Value) : Outcome Value := do
  let offsets ← match steps.number? with
    | some n => offsetsOf n
    | none => .error .typeMismatch
  match h.counted with
  | number (.fraction _) => .error (.notAFraction (String.ofList offsets.text))
  | number n => do
    return doubleValue (← Quadrature.midpoint f (← a.toDouble) (← n.toDouble) offsets.count)
  | tree _ => .error (.notAnExpression (String.ofList offsets.text))
  | _ => .error .typeMismatch

/-- The integral of a tree from `a` to `b` by the midpoint rule. -/
def integral (f : Expr) (a b steps : Value) : Outcome Value := do
  if ← isBelow (intValue 0) steps then
    Quadrature.between join (stepSum f a steps) a b steps
  else do .error (.badCount (← steps.readerText))

end Value

end Fluxion.Calculator
