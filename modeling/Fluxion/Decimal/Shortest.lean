import Fluxion.Decimal.Binary64
import Fluxion.Decimal.Digits

/-!
# The shortest decimal of a double

The decimal with the fewest digits that reads back as the double `m * 2 ^ q`. A decimal reads
back when it lies between the two midpoints to the neighbouring doubles, ends included when
`m` is even. For one digit, two digits and so on the two decimals around the value are tried;
of two that read back the nearer one is taken, of two equally near ones the even one.

All is exact: the value is measured in quarters of its last place, as `4 * m`.
-/

namespace Fluxion.Decimal
set_option autoImplicit false

/-- The decimal `mantissa * 10 ^ exponent`. -/
structure Scaled where
  mantissa : Nat
  exponent : Int
  deriving DecidableEq, Repr

/-- The greatest `k` with `10 ^ k` at most the positive quotient `num / den`. -/
def log10Ratio (num den : Nat) : Int :=
  let k : Int := (length num : Int) - length den
  if den * tens k ≤ num * tens (-k) then k else k - 1

/-- The numerator and denominator of `2 ^ q / 10 ^ k`. -/
def gridUnit (q k : Int) : Nat × Nat :=
  (twos q * tens (-k), twos (-q) * tens k)

/-- Whether the decimal `d * 10 ^ k` reads back as `m * 2 ^ q`. -/
def readsBack (m : Nat) (q : Int) (k : Int) (d : Nat) : Bool :=
  let (num, den) := gridUnit (q - 2) k
  let below := if m = leadingBit ∧ minExponent < q then 1 else 2
  let low := (4 * m - below) * num
  let high := (4 * m + 2) * num
  if m % 2 = 0 then decide (low ≤ d * den ∧ d * den ≤ high)
  else decide (low < d * den ∧ d * den < high)

/-- The decimal of exponent `k` nearest to `m * 2 ^ q` that reads back as it. -/
def onGrid? (m : Nat) (q : Int) (k : Int) : Option Nat :=
  let (num, den) := gridUnit (q - 2) k
  let value := 4 * m * num
  let d := value / den
  if readsBack m q k d && readsBack m q k (d + 1) then
    let rest := value % den
    some (if 2 * rest < den ∨ (2 * rest = den ∧ d % 2 = 0) then d else d + 1)
  else if readsBack m q k d then some d
  else if readsBack m q k (d + 1) then some (d + 1)
  else none

/-- A decimal without trailing zeros. -/
def Scaled.trim (d : Scaled) : Scaled :=
  if 0 < d.mantissa ∧ d.mantissa % 10 = 0 then trim ⟨d.mantissa / 10, d.exponent + 1⟩ else d
termination_by d.mantissa
decreasing_by omega

/-- The shortest decimal of the positive double `m * 2 ^ q`. -/
def shortest (m : Nat) (q : Int) : Scaled :=
  let top := log10Ratio (m * twos q) (twos (-q))
  let tries := (List.range 17).findSome? fun (n : Nat) =>
    let k := top - n
    (onGrid? m q k).map fun d => Scaled.trim ⟨d, k⟩
  tries.getD ⟨0, 0⟩

/-- The fraction that a decimal writes. -/
def Scaled.toRat (d : Scaled) : Rat :=
  mkRat (d.mantissa * tens d.exponent : Nat) (tens (-d.exponent))

end Fluxion.Decimal
