import Fluxion.Number

/-!
# Polynomials

A polynomial is the list of its coefficients in ascending powers. It is never empty, and its
last coefficient is not zero unless it is the only one. The coefficients are of any kind that
can be added, subtracted and multiplied, which may fail; `Number.coefficients` are the numbers,
among which the polynomial of no coefficients is the constant `0.0`.
-/

namespace Fluxion
set_option autoImplicit false

/-- What it takes to compute with polynomials over `α`. -/
structure Coefficients (α : Type) where
  ofInt : Int → α
  /-- The coefficient of the polynomial of no coefficients. -/
  none : α
  add : α → α → Outcome α
  sub : α → α → Outcome α
  mul : α → α → Outcome α
  neg : α → Outcome α
  isZero : α → Bool

/-- The numbers as coefficients. -/
def Number.coefficients : Coefficients Number where
  ofInt := .int
  none := .double 0
  add := Number.add
  sub := Number.sub
  mul := Number.mul
  neg n := .ok n.neg
  isZero := Number.isZero

/-- A polynomial in one variable. -/
structure Polynomial (α : Type) where
  coeffs : List α

namespace Polynomial
variable {α : Type}

/-- The coefficients without the zeros at the end; one coefficient stays. -/
def trim (isZero : α → Bool) : List α → List α
  | [] => []
  | c :: rest =>
    match trim isZero rest with
    | [] => [c]
    | [d] => if isZero d then [c] else [c, d]
    | tail => c :: tail

/-- The polynomial of some coefficients. -/
def ofList (R : Coefficients α) (coeffs : List α) : Polynomial α :=
  match trim R.isZero coeffs with
  | [] => ⟨[R.none]⟩
  | trimmed => ⟨trimmed⟩

/-- The constant polynomial of a coefficient. -/
def constant (c : α) : Polynomial α := ⟨[c]⟩

/-- The greatest power. -/
def degree (p : Polynomial α) : Nat := p.coeffs.length - 1

/-- Coefficients joined in pairs, `zero` standing for a missing one. -/
def zipCoeffs (zero : α) (op : α → α → Outcome α) : List α → List α → Outcome (List α)
  | [], [] => .ok []
  | a :: as, [] => do
    let c ← op a zero
    let rest ← zipCoeffs zero op as []
    return c :: rest
  | [], b :: bs => do
    let c ← op zero b
    let rest ← zipCoeffs zero op [] bs
    return c :: rest
  | a :: as, b :: bs => do
    let c ← op a b
    let rest ← zipCoeffs zero op as bs
    return c :: rest

/-- The sum of two polynomials. -/
def add (R : Coefficients α) (p q : Polynomial α) : Outcome (Polynomial α) := do
  return ofList R (← zipCoeffs (R.ofInt 0) R.add p.coeffs q.coeffs)

/-- The difference of two polynomials. -/
def sub (R : Coefficients α) (p q : Polynomial α) : Outcome (Polynomial α) := do
  return ofList R (← zipCoeffs (R.ofInt 0) R.sub p.coeffs q.coeffs)

/-- The polynomial with the opposite sign. -/
def neg (R : Coefficients α) (p : Polynomial α) : Outcome (Polynomial α) := do
  return ofList R (← p.coeffs.mapM R.neg)

/-- The multiples of `coeffs` by `a` added to the front of `sums`. -/
def addMultiples (R : Coefficients α) (a : α) : List α → List α → Outcome (List α)
  | s :: sums, b :: coeffs => do
    let product ← R.mul a b
    let t ← R.add s product
    let rest ← addMultiples R a sums coeffs
    return t :: rest
  | sums, _ => .ok sums

/-- The products of `left` and `right` added to `sums`, each one place further. -/
def addProducts (R : Coefficients α) (right : List α) : List α → List α → Outcome (List α)
  | a :: left, sums => do
    match ← addMultiples R a sums right with
    | [] => return []
    | s :: rest => return s :: (← addProducts R right left rest)
  | [], sums => .ok sums

/-- The product of two polynomials. -/
def mul (R : Coefficients α) (p q : Polynomial α) : Outcome (Polynomial α) := do
  let zeros := List.replicate (p.coeffs.length + q.coeffs.length - 1) (R.ofInt 0)
  return ofList R (← addProducts R q.coeffs p.coeffs zeros)

/-- The value of coefficients at `v`, by nested multiplication. -/
def evalCoeffs (R : Coefficients α) (v : α) : List α → Outcome α
  | [] => .ok (R.ofInt 0)
  | c :: rest => do
    let total ← evalCoeffs R v rest
    let product ← R.mul total v
    R.add product c

/-- The value at `v`. -/
def eval (R : Coefficients α) (p : Polynomial α) (v : α) : Outcome α := evalCoeffs R v p.coeffs

end Polynomial

end Fluxion
