import Fluxion.Decimal.Shortest

/-!
# Doubles as text

Two forms. The *exact* form writes the shortest decimal that reads back: positionally while
the decimal exponent is from -4 to 15, with `.0` after an integer, and with an exponent of at
least two digits otherwise. The *rounded* form writes ten significant digits and an exponent,
and `0` for what is smaller than `1e-10`.
-/

namespace Fluxion.Decimal
set_option autoImplicit false

/-- Decimal exponents that the exact form writes positionally. -/
def isPositional (exponent : Int) : Bool := decide (-4 ≤ exponent ∧ exponent < 16)

/-- The decimal exponent of the first digit. -/
def Scaled.leading (d : Scaled) : Int := d.exponent + (length d.mantissa : Int) - 1

/-- An exponent: its sign and at least two digits. -/
def exponentText (exponent : Int) : List Char :=
  let body := digits exponent.natAbs
  'e' :: (if exponent < 0 then '-' else '+') :: (if body.length < 2 then '0' :: body else body)

/-- Digits with a point after the first `whole` ones, zeros being added on either side. -/
def pointText (body : List Char) (whole : Int) : List Char :=
  if whole ≤ 0 then '0' :: '.' :: (List.replicate (-whole).toNat '0' ++ body)
  else if (body.length : Int) ≤ whole then
    body ++ List.replicate (whole.toNat - body.length) '0' ++ ['.', '0']
  else body.take whole.toNat ++ '.' :: body.drop whole.toNat

/-- Digits with a point after the first one, unless it is the only one. -/
def leadText : List Char → List Char
  | d :: e :: rest => d :: '.' :: e :: rest
  | body => body

/-- The exact form of a positive decimal. -/
def Scaled.text (d : Scaled) : List Char :=
  let body := digits d.mantissa
  if isPositional d.leading then pointText body (d.leading + 1)
  else leadText body ++ exponentText d.leading

/-- The minus sign of a negative number. -/
def signText (negative : Bool) : List Char := if negative then ['-'] else []

/-- The exact form of a double. -/
def exactText (x : Float) : String :=
  String.ofList <| match decode x with
    | .nan => ['n', 'a', 'n']
    | .infinite negative => signText negative ++ ['i', 'n', 'f']
    | .finite negative m q =>
      signText negative ++ if m = 0 then ['0', '.', '0'] else (shortest m q).text

/-- The ten significant digits of the positive quotient `num / den`, and their exponent. -/
def tenDigits (num den : Nat) : Scaled :=
  let k := log10Ratio num den - 9
  let d := roundDiv (num * tens (-k)) (den * tens k)
  if d = 10000000000 then ⟨1000000000, k + 1⟩ else ⟨d, k⟩

/-- The rounded form of a double. -/
def roundedText (x : Float) : String :=
  String.ofList <| match decode x with
    | .nan => ['n', 'a', 'n']
    | .infinite negative => signText negative ++ ['i', 'n', 'f']
    | .finite negative m q =>
      if x.abs < 1e-10 then ['0']
      else
        let d := tenDigits (m * twos q) (twos (-q))
        signText negative ++ leadText (digits d.mantissa) ++ exponentText d.leading

end Fluxion.Decimal
