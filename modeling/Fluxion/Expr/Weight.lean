import Fluxion.Expr.Sum
import Fluxion.Expr.Tally

/-!
# The weight of a tree

A power whose exponent is no constant is put over the base `e` before it is differentiated.
`weight` is a size that falls along that step: such a power weighs four nodes more than it has,
and a multiple by zero two nodes more. It is a tally, so the constructors make nothing heavier
(`tally_weight`), and the power over the base `e` weighs less than the power, whatever the
constructors made of it (`weight_overBaseE_lt`).
-/

namespace Fluxion
set_option autoImplicit false

namespace Expr

/-- What a node of `op` weighs beyond one node and its operands. -/
def surcharge (op : Op) (l r : Expr) : Nat :=
  match op with
  | .pow => if l = e ∨ r.isConst then 0 else 4
  | .mul => if l = const 0 then 2 else 0
  | _ => 0

/-- The size of a tree with the surcharges of its nodes. -/
def weight : Expr → Nat
  | var _ | e | pi | const _ => 1
  | binary op l r => 1 + (l.weight + r.weight) + surcharge op l r
  | comp l r => 1 + (l.weight + r.weight)
  | special _ a => 1 + a.weight

theorem weight_pos (f : Expr) : 0 < f.weight := by
  fun_cases weight f <;> omega

theorem tally_weight : Tally 1 1 weight where
  least f := weight_pos f
  const _ := rfl
  sum _ _ := rfl
  difference _ _ := rfl
  quotient _ _ := rfl
  product hl r := by simp [weight, surcharge, hl]
  zeroMultiple r := by
    simp only [weight, surcharge, if_true]
    omega
  constPower u c := by simp [weight, surcharge, isConst]
  arg k a := Nat.le_add_left ..

/-- Over the base `e` a power with a varying exponent weighs less. -/
theorem weight_overBaseE_lt {f g : Expr} (hf : f ≠ e) (hg : g.isConst = false) :
    (power e (mul g (special .ln f))).weight < (binary .pow f g).weight := by
  have product := tally_weight.mul g (special .ln f)
  have power : (power e (mul g (special .ln f))).weight ≤
      1 + (1 + (mul g (special .ln f)).weight) :=
    tally_weight.power (by simp [weight, surcharge]) (Nat.le_refl _)
  simp only [weight, surcharge, hf, hg] at *
  simp only [Bool.false_eq_true, or_self, if_false]
  omega

end Expr

end Fluxion
