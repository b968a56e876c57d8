import Mathlib.Algebra.Field.Rat
import Fluxion.Proofs.Canonical

/-!
# Cancelling

A product takes a quotient apart again: a tree divided by another one, and multiplied by it on
either side, is the tree it was (`mul_div_restores`). This needs no canonical form. Where the
quotient is a plain node, the rule for an equal denominator is the first that applies to the
product (`mul_quotient`, `mul_denominator`), as no tree is its own denominator; where the quotient
was simplified, the product is one with a constant.
-/

namespace Fluxion.Expr
set_option autoImplicit false

variable {f g : Expr}

/-- A quotient is larger than its denominator, so no rule takes the one for the other. -/
theorem quotient_ne_denominator (f g : Expr) : binary .div f g ≠ g := by
  intro same
  have := congrArg size same
  simp only [size] at this
  omega

/-- A constant times a plain quotient by it. -/
theorem scale_quotient {c : Rat} (zero : c ≠ 0) (one : c ≠ 1) (f : Expr) :
    scale c (binary .div f (const c)) = f := by
  rw [scale, if_neg zero, if_neg one, if_pos rfl]

/-- The denominator times a plain quotient. -/
theorem mul_denominator (zero : g ≠ const 0) (one : g ≠ const 1) :
    mul g (binary .div f g) = f := by
  have cancelled (plain : Expr → Expr) : mulInto g plain (binary .div f g) = f := by
    rw [mulInto, if_neg (quotient_ne_denominator f g).symm, if_pos rfl]
  unfold mul
  split
  · exact scale_quotient (fun h => zero (congrArg const h)) (fun h => one (congrArg const h)) f
  · exact cancelled _
  · exact cancelled _

/-- A plain quotient times the denominator. -/
theorem mul_quotient (zero : g ≠ const 0) (one : g ≠ const 1) :
    mul (binary .div f g) g = f := by
  have cancelled : over? g (binary .div f g) = some f := if_pos rfl
  have other := quotient_ne_denominator f g
  rw [mul]
  · unfold mulInto
    split
    · exact scale_quotient (fun h => zero (congrArg const h)) (fun h => one (congrArg const h)) f
    · rename_i a b
      -- the denominator is a quotient itself, and the rule for its own denominator is tried first
      have larger : b ≠ binary .div f (binary .div a b) := by
        intro same
        have := congrArg size same
        simp only [size] at this
        omega
      rw [if_neg other, if_neg larger, cancelled]
    · rw [if_neg other, cancelled]
    · rw [cancelled]
  · simp
  · simp

/-- Dividing a tree by another one, zero excepted, and multiplying by it on either side gives the
tree back, whatever the trees are. -/
theorem mul_div_restores (nonzero : g ≠ const 0) :
    mul (div f g) g = f ∧ mul g (div f g) = f := by
  fun_cases div f g with
  | case1 => exact absurd rfl nonzero
  | case2 => exact ⟨mul_one_left f, mul_one_right f⟩
  | case3 => exact ⟨mul_one_right f, mul_one_left f⟩
  | case4 => exact ⟨mul_zero_left g, mul_zero_right g⟩
  | case5 a b _ hb =>
    have restored : a / b * b = a := div_mul_cancel₀ a fun h => hb (congrArg const h)
    exact ⟨congrArg const restored, congrArg const ((mul_comm b (a / b)).trans restored)⟩
  | case6 =>
    have notOne : g ≠ const 1 := ‹¬g = const 1›
    exact ⟨mul_quotient nonzero notOne, mul_denominator nonzero notOne⟩

/-- A quotient of quotients, of which the denominator is no canonical tree. -/
theorem mul_div_restores_nested :
    let f := binary .div (var 0) (var 1)
    let g := binary .div (var 0) (binary .mul (const 0) (var 1))
    g ≠ const 0 ∧ mul (div f g) g = f ∧ mul g (div f g) = f := by
  intro f g
  have nonzero : g ≠ const 0 := by decide
  exact ⟨nonzero, mul_div_restores nonzero⟩

end Fluxion.Expr
