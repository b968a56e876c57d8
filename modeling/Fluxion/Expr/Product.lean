import Fluxion.Expr.Scale

/-!
# Products and powers

Powers come first: `powr f r` is `f` to the constant exponent `r`, with nested constant
exponents multiplied and a leading constant pulled out under an integer exponent. Zero to a
negative power stays a power, a *pole*; `mulPole` multiplies by one. `mul` cancels a factor
against a denominator, moves constants to the front, carries factors into numerators, and
merges powers of equal bases.

Both sides of a product are taken apart by recursion on the trees alone: `mulInto` takes the
right factor apart for a fixed left factor, and `mul` the left one.
-/

namespace Fluxion
set_option autoImplicit false

namespace Expr

/-- The numerator of the tree when its denominator is `g`. -/
def over? (g : Expr) : Expr → Option Expr
  | binary .div a b => if b = g then some a else none
  | _ => none

/-- Only a quotient by that very tree is taken back. -/
theorem over?_eq_some {f g x : Expr} (h : over? g f = some x) : f = binary .div x g := by
  unfold over? at h
  split at h
  · split at h
    · cases h
      simp_all
    · contradiction
  · contradiction

theorem over?_eq_none {f : Expr} (h : ∀ a b, f ≠ binary .div a b) (g : Expr) :
    over? g f = none := by
  unfold over?
  split
  · exact absurd rfl (h _ _)
  · rfl

/-- The product of `f`, which is no constant, and a tree. `plain` joins `f` to a tree that is
neither a constant, a quotient nor a constant multiple, and to `f` itself. -/
def mulInto (f : Expr) (plain : Expr → Expr) : Expr → Expr
  | const c => scale c f
  | binary .div a b =>
    if f = binary .div a b then plain (binary .div a b)
    else if b = f then a
    else match over? (binary .div a b) f with
      | some x => x
      | none => div (mulInto f plain a) b
  | binary .mul (const d) h =>
    if f = binary .mul (const d) h then plain (binary .mul (const d) h)
    else match over? (binary .mul (const d) h) f with
      | some x => x
      | none => scale d (mulInto f plain h)
  | g => match over? g f with
    | some x => x
    | none => plain g

/-- Zero to the power `r`, kept as a power. -/
def pole (r : Rat) : Expr := binary .pow (const 0) (const r)

/-- The integer powers of constants are constants and poles. -/
theorem constPow_eq_pole {c r : Rat} (integer : r.den = 1) (kept : ∀ q, constPow c r ≠ const q) :
    c = 0 ∧ constPow c r = pole r := by
  have zero : c = 0 := by
    refine Decidable.byContradiction fun nonzero => ?_
    obtain ⟨q, folded⟩ := constPow_eq_const nonzero integer
    exact kept q folded
  subst zero
  refine ⟨rfl, ?_⟩
  revert kept
  fun_cases constPow 0 r with
  | case4 =>
    intro _
    rfl
  | _ =>
    intro kept
    exact absurd rfl (kept _)

/-- A pole joined to a tree: powers of zero merge. -/
def joinPole (r : Rat) : Expr → Expr
  | binary .pow (const d) (const k) =>
    if d = 0 then constPow 0 (r + k) else binary .mul (pole r) (binary .pow (const d) (const k))
  | g => binary .mul (pole r) g

/-- The product of a pole and a tree. -/
def mulPole (r : Rat) (g : Expr) : Expr := mulInto (pole r) (joinPole r) g

/-- The tree to a constant exponent. -/
def powr : Expr → Rat → Expr
  | const c, r => constPow c r
  | binary .pow u (const c), r =>
    if r = 0 then const 1
    else if r = 1 then binary .pow u (const c)
    else powr u (c * r)
  | binary .mul (const c) u, r =>
    if r = 0 then const 1
    else if r = 1 then binary .mul (const c) u
    else if r.den = 1 then
      match constPow c r with
      | const q => scale q (powr u r)
      | _ => mulPole r (powr u r)
    else binary .pow (binary .mul (const c) u) (const r)
  | f, r => if r = 0 then const 1 else if r = 1 then f else binary .pow f (const r)

/-- The square root of a tree. -/
def sqrt (f : Expr) : Expr := powr f (1 / 2)

/-- The product of two trees that no other rule touches: equal trees make a square, and
powers of one base merge when both exponents are constants. -/
def mergePowers (f g : Expr) : Expr :=
  if f = g then powr f 2
  else if base f = base g then
    match exponent f, exponent g with
    | const a, const b => powr (base f) (a + b)
    | _, _ => binary .mul f g
  else binary .mul f g

/-- The product of two trees. -/
def mul : Expr → Expr → Expr
  | const c, g => scale c g
  | binary .mul (const c) h, g =>
    mulInto (binary .mul (const c) h)
      (fun k => if binary .mul (const c) h = k then powr (binary .mul (const c) h) 2
        else scale c (mul h k)) g
  | f, g => mulInto f (mergePowers f) g

/-- The power of two trees. A power of `e` undoes a logarithm. -/
def power (f g : Expr) : Expr :=
  match g with
  | const r => powr f r
  | g =>
    if f = const 1 then f
    else if f = e then
      match g with
      | special .ln a => a
      | binary .mul (const c) (special .ln a) => powr a c
      | _ => binary .pow f g
    else binary .pow f g

end Expr

end Fluxion
