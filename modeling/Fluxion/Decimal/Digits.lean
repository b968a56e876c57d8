/-!
# Decimal digits

The digits of a natural number, most significant first, and the number that digits write. An
integer of more than `maxDigits` digits is neither read nor written.
The power of two with the integer exponent `k` is the quotient of `twos k` by `twos (-k)`, and
likewise for ten.
-/

namespace Fluxion.Decimal
set_option autoImplicit false

/-- The character of a digit below ten. -/
def digitChar (d : Nat) : Char := Char.ofNat (48 + d)

/-- The digits of a number; zero has one. -/
def digits (n : Nat) : List Char :=
  if n < 10 then [digitChar n] else digits (n / 10) ++ [digitChar (n % 10)]
termination_by n
decreasing_by omega

/-- The number of digits. -/
def length (n : Nat) : Nat := if n < 10 then 1 else length (n / 10) + 1
termination_by n
decreasing_by omega

/-- The digits of an integer, after a minus sign when it is negative. -/
def signedDigits (n : Int) : List Char :=
  if n < 0 then '-' :: digits n.natAbs else digits n.natAbs

/-- The most digits that an integer is read from or written with. -/
def maxDigits : Nat := 4300

/-- Whether an integer has few enough digits to be written. -/
def isWritable (n : Int) : Bool := length n.natAbs ≤ maxDigits

/-- The power of two with an exponent; it is one for negative exponents. -/
def twos (k : Int) : Nat := Nat.pow 2 k.toNat

/-- The power of ten with an exponent; it is one for negative exponents. -/
def tens (k : Int) : Nat := Nat.pow 10 k.toNat

theorem twos_pos (k : Int) : 0 < twos k := Nat.pow_pos (by decide)

theorem tens_pos (k : Int) : 0 < tens k := Nat.pow_pos (by decide)

/-- The number that digit values write, most significant first. -/
def ofValues (values : List Nat) : Nat := values.foldl (fun n d => 10 * n + d) 0

theorem digits_ne_nil (n : Nat) : digits n ≠ [] := by
  unfold digits; split <;> simp

theorem length_digits (n : Nat) : (digits n).length = length n := by
  induction n using Nat.strongRecOn with
  | _ n ih =>
    unfold digits length
    split
    · rfl
    · rename_i h
      simp [ih (n / 10) (by omega)]

end Fluxion.Decimal
