import Fluxion.Decimal.Digits

/-!
# Doubles as fractions

A finite double is a sign, a mantissa `m` below `2 ^ 53` and a power of two: its value is
`m * 2 ^ q`. `decode` reads these off the bits; `ofRat?` goes the other way and rounds a fraction
to the nearest double, a tie to the even mantissa.
-/

namespace Fluxion.Decimal
set_option autoImplicit false

/-- The leading bit of a mantissa that is not the smallest: `2 ^ 52`. -/
def leadingBit : Nat := 0x10000000000000

/-- The bit of the sign: `2 ^ 63`. -/
def signBit : Nat := 0x8000000000000000

/-- The exponent of the smallest double. -/
def minExponent : Int := -1074

/-- The value of a double. -/
inductive Decoded where
  | nan
  | infinite (negative : Bool)
  /-- The value `m * 2 ^ q`, with a minus sign if `negative`. -/
  | finite (negative : Bool) (m : Nat) (q : Int)
  deriving DecidableEq, Repr

/-- The value that 64 bits stand for. -/
def decodeBits (bits : Nat) : Decoded :=
  let negative := decide (bits / signBit % 2 = 1)
  let exponent := bits / leadingBit % 2048
  let fraction := bits % leadingBit
  if exponent = 2047 then
    if fraction = 0 then .infinite negative else .nan
  else if exponent = 0 then .finite negative fraction minExponent
  else .finite negative (leadingBit + fraction) (minExponent + (exponent - 1 : Nat))

/-- The value of a double. -/
def decode (x : Float) : Decoded := decodeBits x.toBits.toNat

/-- The fraction `m * 2 ^ q`. -/
def scaledRat (m : Nat) (q : Int) : Rat :=
  mkRat (m * twos q : Nat) (twos (-q))

/-- The quotient rounded to the nearest natural number, a tie to the even one. -/
def roundDiv (num den : Nat) : Nat :=
  let quotient := num / den
  let rest := num % den
  if 2 * rest < den then quotient
  else if den < 2 * rest then quotient + 1
  else if quotient % 2 = 0 then quotient
  else quotient + 1

/-- The greatest `k` with `2 ^ k` at most the positive quotient `num / den`. -/
def log2Ratio (num den : Nat) : Int :=
  let k : Int := (num.log2 : Int) - den.log2
  if den * twos k ≤ num * twos (-k) then k else k - 1

/-- The bits of the double nearest to `num / den`, unless it is out of range. -/
def ratioBits? (num den : Nat) : Option Nat :=
  if num = 0 then some 0
  else
    let q := max (log2Ratio num den - 52) minExponent
    let m := roundDiv (num * twos (-q)) (den * twos q)
    let bits := (q - minExponent).toNat * leadingBit + m
    if bits < 2047 * leadingBit then some bits else none

/-- The double nearest to a fraction, unless it is out of range. -/
def ofRat? (r : Rat) : Option Float :=
  (ratioBits? r.num.natAbs r.den).map fun bits =>
    Float.ofBits (if r.num < 0 then bits + signBit else bits).toUInt64

/-- The double nearest to an integer, unless it is out of range. -/
def ofInt? (n : Int) : Option Float := ofRat? n

end Fluxion.Decimal
