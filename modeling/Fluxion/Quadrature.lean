import Fluxion.Expr.Eval
import Fluxion.Number

/-!
# The midpoint rule

The interval is cut into equal steps (`between`), the tree is evaluated at the middle of each, and
the sum of the values is multiplied by the step (`sampleSum`). Both are stated for any arithmetic;
values are summed in pairs of halves, which keeps the rounding of doubles small.
-/

namespace Fluxion
set_option autoImplicit false

namespace Quadrature

/-- The number of steps unless another is asked for. -/
def defaultSteps : Nat := 10000

/-- The sum of eight running sums and more terms, each of which goes to the next of them in turn;
the terms that are left over are added at the end. -/
def laneSum {α : Type} [Add α] (r₀ r₁ r₂ r₃ r₄ r₅ r₆ r₇ : α) : List α → α
  | a :: b :: c :: d :: e :: f :: g :: h :: rest =>
    laneSum (r₀ + a) (r₁ + b) (r₂ + c) (r₃ + d) (r₄ + e) (r₅ + f) (r₆ + g) (r₇ + h) rest
  | rest => rest.foldl (· + ·) (((r₀ + r₁) + (r₂ + r₃)) + ((r₄ + r₅) + (r₆ + r₇)))

/-- The sum of at most 128 terms. -/
def blockSum {α : Type} [Add α] [Zero α] : List α → α
  | a :: b :: c :: d :: e :: f :: g :: h :: rest => laneSum a b c d e f g h rest
  | terms => terms.foldl (· + ·) 0

/-- The sum of `n` terms: long lists are halved, at a multiple of eight. -/
def sumOf {α : Type} [Add α] [Zero α] (n : Nat) (terms : List α) : α :=
  if n ≤ 128 then blockSum terms
  else
    let half := n / 2 - n / 2 % 8
    let (front, back) := terms.splitAt half
    sumOf half front + sumOf (n - half) back

/-- The sum of some terms, in pairs of halves. -/
def pairwiseSum {α : Type} [Add α] [Zero α] (terms : List α) : α := sumOf terms.length terms

/-- The middles of `steps` steps of width `h` from `a` on: the `k`-th lies `k - half` steps
from `a`. -/
def middles {α : Type} [Add α] [Sub α] [Mul α] [NatCast α] (half a h : α) (steps : Nat) :
    List α :=
  (List.range steps).map fun k => a + h * (((k + 1 : Nat) : α) - half)

/-- The step times the sum of the values of `f` at the middles. -/
def sampleSum {α : Type} [Add α] [Sub α] [Mul α] [NatCast α] [Zero α] (f : α → α) (half a h : α)
    (steps : Nat) : α :=
  h * pairwiseSum ((middles half a h steps).map f)

instance doubleNatCast : NatCast Float := ⟨Float.ofNat⟩

instance doubleZero : Zero Float := ⟨0.0⟩

/-- The midpoint rule for a tree in the first variable, in any arithmetic, with so many samples at
steps of width `h` from `a` on. A tree that cannot be evaluated has no sum, not even that of no
samples. -/
def midpointIn {α : Type} [Add α] [Sub α] [Mul α] [NatCast α] [Zero α]
    (arithmetic : Arithmetic (Sample α)) (half : α) (f : Expr) (a h : α) (steps : Nat) :
    Outcome α := do
  return sampleSum (← ofTree (f.sampler arithmetic 0)) half a h steps

/-- The midpoint rule from `a` to `b`: a step is as wide as the interval over the number of steps.
These are joined by `join`, and `sum` is the sum of the samples at steps of a width. -/
def between {α β : Type} (join : Op → α → α → Outcome α) (sum : α → Outcome β) (a b steps : α) :
    Outcome β := do
  let length ← join .sub b a
  let h ← join .div length steps
  sum h

/-- The midpoint rule in doubles. -/
def midpoint (f : Expr) (a h : Float) (steps : Nat) : Outcome Float :=
  midpointIn Doubles.samples 0.5 f a h steps

end Quadrature

end Fluxion
