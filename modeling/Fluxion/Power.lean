/-!
# Powers of exact numbers

The powers of `0`, `1` and `-1` follow from the parity of the exponent, so that an exponent of
any size is harmless there; all other powers are multiplied out.
-/

namespace Fluxion
set_option autoImplicit false

/-- The integer `a` to the power `n`. -/
def intPower (a : Int) (n : Nat) : Int :=
  if a.natAbs ≤ 1 then
    if n = 0 then 1 else if n % 2 = 0 then a * a else a
  else Int.pow a n

/-- The fraction `q` to the power `k`; a negative power of zero is zero. -/
def fractionPower (q : Rat) (k : Int) : Rat :=
  if q = 0 ∨ q = 1 ∨ q = -1 then
    if k = 0 then 1 else if k % 2 = 0 then q * q else q
  else Rat.zpow q k

end Fluxion
