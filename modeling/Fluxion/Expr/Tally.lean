import Fluxion.Expr.Product

/-!
# Counting the nodes of a tree

A *tally* counts `leaf` for each constant and `node` for each operation, beyond what it counts for
the operands, so it is the number of some of the nodes. Division, scaling, products and powers move
constants about and build more than they were given on the way, but they fold what they built: no
tally of the result is above that of the plain operation (`Tally.div`, `Tally.scale`, `Tally.mul`,
`Tally.power`).

The multiples by zero are the exception. A power of one may keep the power of zero as a factor of
its own, a pole, so a tally has to count a multiple by zero for an operation and a constant more
than it has.
-/

namespace Fluxion
set_option autoImplicit false

namespace Expr

/-- `μ` counts `leaf` for a constant and `node` for an operation, and more for multiples by zero. -/
structure Tally (leaf node : Nat) (μ : Expr → Nat) : Prop where
  least : ∀ f, leaf ≤ μ f
  const : ∀ c, μ (const c) = leaf
  sum : ∀ l r, μ (binary .add l r) = node + (μ l + μ r)
  difference : ∀ l r, μ (binary .sub l r) = node + (μ l + μ r)
  quotient : ∀ l r, μ (binary .div l r) = node + (μ l + μ r)
  product : ∀ {l}, l ≠ Expr.const 0 → ∀ r, μ (binary .mul l r) = node + (μ l + μ r)
  zeroMultiple : ∀ r, 2 * (node + leaf) + μ r ≤ μ (binary .mul (Expr.const 0) r)
  constPower : ∀ u c, μ (binary .pow u (Expr.const c)) = node + (μ u + leaf)
  arg : ∀ k a, μ a ≤ μ (special k a)

namespace Tally

variable {leaf node : Nat} {μ : Expr → Nat} {f g : Expr}

/-- A multiple tallies its two new nodes at least. -/
theorem le_multiple (T : Tally leaf node μ) (c : Rat) (h : Expr) :
    node + (leaf + μ h) ≤ μ (binary .mul (Expr.const c) h) := by
  by_cases zero : c = 0
  · subst zero
    have := T.zeroMultiple h
    omega
  · exact Nat.le_of_eq (by rw [T.product (by simpa using zero), T.const])

theorem div (T : Tally leaf node μ) (f g : Expr) : μ (div f g) ≤ node + (μ f + μ g) := by
  have := T.least f
  fun_cases Expr.div f g with
  | case1 | case6 => exact Nat.le_of_eq (T.quotient ..)
  | case3 => omega
  | case2 | case4 | case5 =>
    rw [T.const]
    omega

theorem constPow (T : Tally leaf node μ) (c r : Rat) :
    μ (constPow c r) ≤ node + (leaf + leaf) := by
  fun_cases Expr.constPow c r with
  | case4 => exact Nat.le_of_eq (by rw [T.constPower, T.const])
  | _ =>
    rw [T.const]
    omega

theorem scale (T : Tally leaf node μ) (c : Rat) (g : Expr) :
    μ (scale c g) ≤ node + (leaf + μ g) := by
  fun_induction Expr.scale c g with
  | case1 | case2 | case5 | case9 | case13 =>
    rw [T.const]
    omega
  | case3 | case6 | case10 | case14 => omega
  | case4 c d h _ _ ih =>
    have := T.le_multiple d h
    omega
  | case7 c a =>
    rw [T.quotient]
    omega
  | case8 c a b _ _ _ ih =>
    have := T.div (Expr.scale c a) b
    rw [T.quotient]
    omega
  | case11 c k =>
    have := T.constPow c (1 + k)
    rw [T.constPower, T.const]
    omega
  | case12 c d k nonzero | case15 c g _ _ _ _ nonzero =>
    exact Nat.le_of_eq (by rw [T.product (by simpa using nonzero), T.const])

/-- A numerator that is taken back tallies no more than the quotient. -/
theorem of_over? (T : Tally leaf node μ) {x : Expr} (h : over? g f = some x) : μ x ≤ μ f := by
  obtain rfl := over?_eq_some h
  rw [T.quotient]
  omega

/-- The product of `f` and a tree is within the plain node where that holds of the trees that are
joined to `f` as they are. -/
theorem mulInto (T : Tally leaf node μ) {plain : Expr → Expr}
    (joined : ∀ k, μ (plain k) ≤ node + (μ f + μ k)) (g : Expr) :
    μ (mulInto f plain g) ≤ node + (μ f + μ g) := by
  fun_induction Expr.mulInto f plain g with
  | case1 c =>
    have := T.scale c f
    rw [T.const]
    omega
  | case2 | case6 | case10 => exact joined _
  | case3 =>
    rw [T.quotient]
    omega
  | case4 _ _ _ _ _ h | case7 _ _ _ _ h | case9 _ _ _ _ _ h =>
    have := T.of_over? h
    omega
  | case5 a b _ _ _ ih =>
    have := T.div (Expr.mulInto f plain a) b
    rw [T.quotient]
    omega
  | case8 d h _ _ ih =>
    have := T.scale d (Expr.mulInto f plain h)
    have := T.le_multiple d h
    omega

theorem pole (T : Tally leaf node μ) (r : Rat) : μ (pole r) = node + (leaf + leaf) := by
  rw [Expr.pole, T.constPower, T.const]

theorem joinPole (T : Tally leaf node μ) (r : Rat) (g : Expr) :
    μ (joinPole r g) ≤ node + (μ (Expr.pole r) + μ g) := by
  have plain (g : Expr) : μ (binary .mul (Expr.pole r) g) = node + (μ (Expr.pole r) + μ g) :=
    T.product (by simp [Expr.pole]) g
  fun_cases Expr.joinPole r g with
  | case1 k =>
    have := T.constPow 0 (r + k)
    rw [T.constPower, T.const]
    omega
  | _ => exact Nat.le_of_eq (plain _)

theorem mulPole (T : Tally leaf node μ) (r : Rat) (g : Expr) :
    μ (mulPole r g) ≤ 2 * (node + leaf) + μ g := by
  have := T.mulInto (T.joinPole r) g
  rw [T.pole] at this
  rw [Expr.mulPole]
  omega

theorem powr (T : Tally leaf node μ) (f : Expr) (r : Rat) : μ (powr f r) ≤ node + (μ f + leaf) := by
  fun_induction Expr.powr f r with
  | case1 c r =>
    have := T.constPow c r
    rw [T.const]
    omega
  | case2 | case5 | case10 =>
    rw [T.const]
    omega
  | case3 | case6 | case11 => omega
  | case4 u c r _ _ ih =>
    rw [T.constPower]
    omega
  | case7 c u r _ _ _ q _ ih =>
    have := T.scale q (Expr.powr u r)
    have := T.le_multiple c u
    omega
  | case8 c u r h0 h1 integer kept ih =>
    obtain ⟨rfl, -⟩ := constPow_eq_pole integer kept
    have := T.mulPole r (Expr.powr u r)
    have := T.zeroMultiple u
    omega
  | case9 | case12 => exact Nat.le_of_eq (T.constPower ..)

/-- The base of a power tallies no more than the power. -/
theorem base (T : Tally leaf node μ) {c : Rat} (h : exponent f = Expr.const c) :
    μ (base f) ≤ μ f := by
  unfold exponent at h
  unfold Expr.base
  split at h
  · subst h
    rw [T.constPower]
    exact Nat.le_trans (Nat.le_add_right ..) (Nat.le_add_left ..)
  · exact Nat.le_refl _

/-- Powers of one base tally no more merged than side by side. -/
theorem mergePowers (T : Tally leaf node μ) (hf : f ≠ Expr.const 0) (g : Expr) :
    μ (mergePowers f g) ≤ node + (μ f + μ g) := by
  have := T.least g
  fun_cases Expr.mergePowers f g with
  | case1 =>
    have := T.powr f 2
    omega
  | case2 _ _ a b _ exponent =>
    have := T.powr (Expr.base f) (a + b)
    have := T.base exponent
    omega
  | case3 | case4 => exact Nat.le_of_eq (T.product hf g)

/-- A product tallies no more than the node that it could have been. -/
theorem mul (T : Tally leaf node μ) (f g : Expr) : μ (mul f g) ≤ node + (μ f + μ g) := by
  fun_induction Expr.mul f g with
  | case1 c g =>
    have := T.scale c g
    rw [T.const]
    omega
  | case2 c h g ih =>
    refine T.mulInto (fun k => ?_) g
    have := T.least k
    split
    · have := T.powr (binary .mul (Expr.const c) h) 2
      omega
    · have := T.scale c (Expr.mul h k)
      have := T.le_multiple c h
      have := ih k
      omega
  | case3 f g hf => exact T.mulInto (T.mergePowers fun zero => (hf 0 zero).elim) g

/-- What a tally counts for a power is bounded where it bounds what the plain power counts: the
exponent need not be a constant. -/
theorem power (T : Tally leaf node μ) {bound : Nat} (plain : μ (binary .pow f g) ≤ bound)
    (joined : node + (μ f + μ g) ≤ bound) : μ (power f g) ≤ bound := by
  fun_cases Expr.power f g with
  | case1 r =>
    have := T.powr f r
    rw [T.const] at joined
    omega
  | case2 => omega
  | case3 _ _ a =>
    have := T.arg .ln a
    omega
  | case4 _ _ c a =>
    have := T.powr a c
    have := T.arg .ln a
    have := T.le_multiple c (special .ln a)
    omega
  | _ => exact plain

end Tally

end Expr

end Fluxion
