import Mathlib.Analysis.Calculus.Deriv.Abs
import Mathlib.Analysis.SpecialFunctions.Arcosh
import Mathlib.Analysis.SpecialFunctions.Arsinh
import Mathlib.Analysis.SpecialFunctions.Artanh
import Mathlib.Analysis.SpecialFunctions.Log.Deriv
import Mathlib.Analysis.SpecialFunctions.Sqrt
import Mathlib.Analysis.SpecialFunctions.Trigonometric.ArctanDeriv
import Mathlib.Analysis.SpecialFunctions.Trigonometric.InverseDeriv
import Fluxion.Expr.Basic

/-!
# The named functions over the reals

Each kind names a function of the reals: where it is defined, what it is there, where it is smooth,
and what its derivative is there. The table of derivatives is checked against the functions
(`hasDerivAt_function`).
-/

namespace Fluxion.Kind
set_option autoImplicit false

/-- Where the function is defined. -/
def DefinedAt : Kind → ℝ → Prop
  | tan, u | sec, u => Real.cos u ≠ 0
  | cot, u | csc, u => Real.sin u ≠ 0
  | asin, u | acos, u => -1 ≤ u ∧ u ≤ 1
  | coth, u | csch, u => u ≠ 0
  | acosh, u => 1 ≤ u
  | atanh, u => -1 < u ∧ u < 1
  | ln, u => 0 < u
  | _, _ => True

/-- The function where it is defined. -/
noncomputable def function : Kind → ℝ → ℝ
  | sin, u => Real.sin u
  | cos, u => Real.cos u
  | tan, u => Real.tan u
  | cot, u => Real.cos u / Real.sin u
  | sec, u => 1 / Real.cos u
  | csc, u => 1 / Real.sin u
  | asin, u => Real.arcsin u
  | acos, u => Real.arccos u
  | atan, u => Real.arctan u
  | sinh, u => Real.sinh u
  | cosh, u => Real.cosh u
  | tanh, u => Real.tanh u
  | coth, u => Real.cosh u / Real.sinh u
  | sech, u => 1 / Real.cosh u
  | csch, u => 1 / Real.sinh u
  | asinh, u => Real.arsinh u
  | acosh, u => Real.arcosh u
  | atanh, u => Real.artanh u
  | abs, u => |u|
  | ln, u => Real.log u

/-- The open set where the function is differentiable. -/
def SmoothAt : Kind → ℝ → Prop
  | asin, u | acos, u => -1 < u ∧ u < 1
  | acosh, u => 1 < u
  | abs, u => u ≠ 0
  | k, u => k.DefinedAt u

/-- The derivative of the function where it is smooth. -/
noncomputable def slope : Kind → ℝ → ℝ
  | sin, u => Real.cos u
  | cos, u => -Real.sin u
  | tan, u => 1 / Real.cos u ^ 2
  | cot, u => -(1 / Real.sin u ^ 2)
  | sec, u => Real.sin u / Real.cos u ^ 2
  | csc, u => -(Real.cos u / Real.sin u ^ 2)
  | asin, u => 1 / √(1 - u ^ 2)
  | acos, u => -(1 / √(1 - u ^ 2))
  | atan, u => 1 / (1 + u ^ 2)
  | sinh, u => Real.cosh u
  | cosh, u => Real.sinh u
  | tanh, u => 1 / Real.cosh u ^ 2
  | coth, u => -(1 / Real.sinh u ^ 2)
  | sech, u => -(Real.sinh u / Real.cosh u ^ 2)
  | csch, u => -(Real.cosh u / Real.sinh u ^ 2)
  | asinh, u => 1 / √(u ^ 2 + 1)
  | acosh, u => 1 / √(u ^ 2 - 1)
  | atanh, u => 1 / (1 - u ^ 2)
  | abs, u => u / |u|
  | ln, u => 1 / u

theorem SmoothAt.defined {k : Kind} {u : ℝ} (h : k.SmoothAt u) : k.DefinedAt u := by
  cases k with
  | asin | acos => exact ⟨h.1.le, h.2.le⟩
  | acosh => exact le_of_lt h
  | abs => trivial
  | _ => exact h

theorem hasDerivAt_artanh {u : ℝ} (lower : -1 < u) (upper : u < 1) :
    HasDerivAt Real.artanh (1 / (1 - u ^ 2)) u := by
  have above : 0 < 1 + u := by linarith
  have below : 0 < 1 - u := by linarith
  have quotient : HasDerivAt (fun x => (1 + x) / (1 - x)) (2 / (1 - u) ^ 2) u := by
    have := ((hasDerivAt_id u).const_add 1).div ((hasDerivAt_id u).const_sub 1) below.ne'
    refine this.congr_deriv ?_
    simp only [id]
    ring
  have positive : 0 < (1 + u) / (1 - u) := div_pos above below
  refine ((quotient.sqrt positive.ne').log (Real.sqrt_pos.2 positive).ne').congr_deriv ?_
  rw [div_div, mul_assoc, Real.mul_self_sqrt positive.le]
  have : (1 : ℝ) - u ^ 2 ≠ 0 := by nlinarith
  field_simp
  ring

/-- The table of derivatives is right. -/
theorem hasDerivAt_function {k : Kind} {u : ℝ} (h : k.SmoothAt u) :
    HasDerivAt k.function (k.slope u) u := by
  have nonzero (h : u ≠ 0) : Real.sinh u ≠ 0 := Real.sinh_eq_zero.not.2 h
  cases k with
  | sin => exact Real.hasDerivAt_sin u
  | cos => exact Real.hasDerivAt_cos u
  | tan => exact Real.hasDerivAt_tan h
  | cot =>
    refine ((Real.hasDerivAt_cos u).div (Real.hasDerivAt_sin u) h).congr_deriv ?_
    rw [slope, ← Real.sin_sq_add_cos_sq u]
    ring
  | sec =>
    refine ((hasDerivAt_const u 1).div (Real.hasDerivAt_cos u) h).congr_deriv ?_
    rw [slope]
    ring
  | csc =>
    refine ((hasDerivAt_const u 1).div (Real.hasDerivAt_sin u) h).congr_deriv ?_
    rw [slope]
    ring
  | asin => exact Real.hasDerivAt_arcsin h.1.ne' h.2.ne
  | acos => exact Real.hasDerivAt_arccos h.1.ne' h.2.ne
  | atan => exact Real.hasDerivAt_arctan u
  | sinh => exact Real.hasDerivAt_sinh u
  | cosh => exact Real.hasDerivAt_cosh u
  | tanh =>
    have quotient := (Real.hasDerivAt_sinh u).div (Real.hasDerivAt_cosh u) (Real.cosh_pos u).ne'
    have same : tanh.function = Real.sinh / Real.cosh := funext Real.tanh_eq_sinh_div_cosh
    rw [same]
    refine quotient.congr_deriv ?_
    rw [slope, ← Real.cosh_sq_sub_sinh_sq u]
    ring
  | coth =>
    refine ((Real.hasDerivAt_cosh u).div (Real.hasDerivAt_sinh u) (nonzero h)).congr_deriv ?_
    rw [slope, ← Real.cosh_sq_sub_sinh_sq u]
    ring
  | sech =>
    refine ((hasDerivAt_const u 1).div (Real.hasDerivAt_cosh u)
      (Real.cosh_pos u).ne').congr_deriv ?_
    rw [slope]
    ring
  | csch =>
    refine ((hasDerivAt_const u 1).div (Real.hasDerivAt_sinh u) (nonzero h)).congr_deriv ?_
    rw [slope]
    ring
  | asinh =>
    refine (Real.hasDerivAt_arsinh u).congr_deriv ?_
    rw [slope, add_comm, one_div]
  | acosh =>
    refine (Real.hasDerivAt_arcosh h).congr_deriv ?_
    rw [slope, one_div]
  | atanh => exact hasDerivAt_artanh h.1 h.2
  | abs =>
    refine (hasDerivAt_abs h).congr_deriv ?_
    rcases lt_or_gt_of_ne h with neg | pos
    · rw [slope, abs_of_neg neg, div_neg, div_self h]
      simp [neg]
    · rw [slope, abs_of_pos pos, div_self h]
      simp [pos]
  | ln =>
    refine (Real.hasDerivAt_log (ne_of_gt h)).congr_deriv ?_
    rw [slope, one_div]

end Fluxion.Kind
