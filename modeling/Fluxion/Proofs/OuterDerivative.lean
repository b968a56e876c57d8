import Fluxion.Proofs.Roots

/-!
# Derivatives of the named functions

The tree `outer k a` has the value that the table of derivatives gives for `k` at the value of `a`
(`value_outer`), wherever the named function is smooth.
-/

namespace Fluxion.Expr
set_option autoImplicit false

variable {p : Axis → ℝ} {a : Expr} {u : ℝ}

theorem value_named {k : Kind} (ha : exact.value p a = some u) (h : k.DefinedAt u) :
    exact.value p (special k a) = some (k.function u) := by
  rw [Interpretation.value_special, ha]
  exact if_pos h

theorem value_one : exact.value p (const 1) = some 1 := by
  rw [Interpretation.value_const, map_one]

theorem value_quotient {f g : Expr} {x y : ℝ} (hf : exact.value p f = some x)
    (hg : exact.value p g = some y) (nonzero : y ≠ 0) :
    exact.value p (div f g) = some (x / y) :=
  (lawful_reals _).value_div hf hg (div_reals_eq_some.2 ⟨nonzero, rfl⟩)

/-- The reciprocal of a root. -/
theorem value_div_sqrt {f g : Expr} {x y : ℝ} (hf : exact.value p f = some x)
    (canonical : g.Canonical) (rooted : g.isBinary .pow = true → g.Rooted p)
    (hg : exact.value p g = some y) (positive : 0 < y) :
    exact.value p (div f (sqrt g)) = some (x / √y) :=
  value_quotient hf (value_sqrt canonical rooted hg positive) (Real.sqrt_pos.2 positive).ne'

/-- The trees of the derivatives have the values of the table. -/
theorem value_outer {k : Kind} (canonical : a.Canonical)
    (rooted : k = .asinh ∨ k = .acosh → a.Rooted p) (ha : exact.value p a = some u)
    (smooth : k.SmoothAt u) : exact.value p (outer k a) = some (k.slope u) := by
  have L := lawful_reals realFunction
  have named (k : Kind) (h : k.DefinedAt u) := value_named ha h
  have call (k : Kind) : (special k a).Canonical := canonical
  have one := value_one (p := p)
  have square := L.value_square canonical ha
  have squared : (powr a 2).Canonical := canonical_powr 2 canonical
  have constant : (const 1).Canonical := trivial
  cases k with
  | sin => exact named .cos trivial
  | cos => exact L.value_neg (named .sin trivial)
  | tan =>
    refine (L.value_square (call .sec) (named .sec smooth)).trans (congrArg some ?_)
    simp only [Kind.function, Kind.slope]
    ring
  | cot =>
    have csc := L.value_square (call .csc) (named .csc smooth)
    refine (L.value_neg csc).trans (congrArg some ?_)
    simp only [Kind.function, Kind.slope]
    ring
  | sec =>
    have product := L.value_mul (call .sec) (call .tan) (named .sec smooth) (named .tan smooth)
    refine product.trans (congrArg some ?_)
    simp only [Kind.function, Kind.slope, Real.tan_eq_sin_div_cos]
    ring
  | csc =>
    have product := L.value_mul (call .csc) (call .cot) (named .csc smooth) (named .cot smooth)
    refine (L.value_neg product).trans (congrArg some ?_)
    simp only [Kind.function, Kind.slope]
    ring
  -- The root needs a positive radicand, and that it is no power whose exponents were multiplied.
  | asin =>
    have positive : 0 < 1 - u * u := by nlinarith [smooth.1, smooth.2]
    have difference := L.value_sub one square
    refine (value_div_sqrt one (canonical_sub constant squared) ?_ difference positive).trans ?_
    · simp [one_sub_not_power]
    · rw [Kind.slope, sq]
  | acos =>
    have positive : 0 < 1 - u * u := by nlinarith [smooth.1, smooth.2]
    have difference := L.value_sub one square
    have opposite := Interpretation.value_const exact p (-1)
    refine (value_div_sqrt opposite (canonical_sub constant squared) ?_ difference
      positive).trans (congrArg some ?_)
    · simp [one_sub_not_power]
    · rw [Kind.slope, sq, map_neg, map_one, neg_div]
  | atan =>
    have positive : 0 < 1 + u * u := by nlinarith [mul_self_nonneg u]
    refine (value_quotient one (L.value_add one square) positive.ne').trans ?_
    rw [Kind.slope, sq]
  | sinh => exact named .cosh trivial
  | cosh => exact named .sinh trivial
  | tanh =>
    refine (L.value_square (call .sech) (named .sech trivial)).trans (congrArg some ?_)
    simp only [Kind.function, Kind.slope]
    ring
  | coth =>
    have csch := L.value_square (call .csch) (named .csch smooth)
    refine (L.value_neg csch).trans (congrArg some ?_)
    simp only [Kind.function, Kind.slope]
    ring
  | sech =>
    have product := L.value_mul (call .sech) (call .tanh) (named .sech trivial)
      (named .tanh trivial)
    refine (L.value_neg product).trans (congrArg some ?_)
    simp only [Kind.function, Kind.slope, Real.tanh_eq_sinh_div_cosh]
    ring
  | csch =>
    have product := L.value_mul (call .csch) (call .coth) (named .csch smooth)
      (named .coth smooth)
    refine (L.value_neg product).trans (congrArg some ?_)
    simp only [Kind.function, Kind.slope]
    ring
  -- These two radicands may be powers for a rooted argument only.
  | asinh =>
    have positive : 0 < u * u + 1 := by nlinarith [mul_self_nonneg u]
    have sum := L.value_add square one
    refine (value_div_sqrt one (canonical_add squared constant)
      (rooted_add_one (rooted (.inl rfl))) sum positive).trans ?_
    rw [Kind.slope, sq]
  | acosh =>
    have above : 1 < u := smooth
    have positive : 0 < u * u - 1 := by nlinarith
    have difference := L.value_sub square one
    refine (value_div_sqrt one (canonical_sub squared constant)
      (rooted_sub_one (rooted (.inr rfl))) difference positive).trans ?_
    rw [Kind.slope, sq]
  | atanh =>
    have positive : 0 < 1 - u * u := by nlinarith [smooth.1, smooth.2]
    refine (value_quotient one (L.value_sub one square) positive.ne').trans ?_
    rw [Kind.slope, sq]
  | abs => exact value_quotient ha (named .abs trivial) (abs_ne_zero.2 smooth)
  | ln => exact value_quotient one ha (ne_of_gt smooth)

end Fluxion.Expr
