import Mathlib.Analysis.SpecialFunctions.Integrals.Basic
import Fluxion.Calculator.Samples
import Fluxion.Proofs.ExactEvaluation
import Fluxion.Proofs.NearestDouble

/-!
# The midpoint rule for quadratics

In exact numbers the order in which the samples are added makes no difference (`sumOf_eq`), and the
rule is the step times the sum of the values at the middles. For a quadratic that sum has a closed
form: it misses the integral by a term that only depends on the leading coefficient, the length of
the interval and the number of steps. From `b` to `a` the middles come in the opposite order and the
steps have the opposite sign (`midpoint_swap`), whatever the tree is.
-/

namespace Fluxion
set_option autoImplicit false

namespace Quadrature

section Sums

variable {α : Type} [AddCommMonoid α]

theorem foldl_add_eq (terms : List α) (s : α) : terms.foldl (· + ·) s = s + terms.sum := by
  induction terms generalizing s with
  | nil => simp
  | cons a terms ih => rw [List.foldl_cons, ih, List.sum_cons, add_assoc]

/-- Eight running sums come to the sum. -/
theorem laneSum_eq (r₀ r₁ r₂ r₃ r₄ r₅ r₆ r₇ : α) (terms : List α) :
    laneSum r₀ r₁ r₂ r₃ r₄ r₅ r₆ r₇ terms =
      r₀ + r₁ + r₂ + r₃ + r₄ + r₅ + r₆ + r₇ + terms.sum := by
  fun_induction laneSum r₀ r₁ r₂ r₃ r₄ r₅ r₆ r₇ terms with
  | case1 r₀ r₁ r₂ r₃ r₄ r₅ r₆ r₇ a b c d e f g h rest ih =>
    simp only [ih, List.sum_cons]
    abel
  | case2 r₀ r₁ r₂ r₃ r₄ r₅ r₆ r₇ rest =>
    rw [foldl_add_eq]
    abel

/-- Numbers that are exact may be added in any order, so adding by blocks is adding. -/
theorem blockSum_eq (terms : List α) : blockSum terms = terms.sum := by
  unfold blockSum
  split
  · simp only [laneSum_eq, List.sum_cons]
    abel
  · rw [foldl_add_eq, zero_add]

/-- Summed in pairs of halves, the terms have the sum they have in any order. -/
theorem sumOf_eq (n : ℕ) (terms : List α) : sumOf n terms = terms.sum := by
  fun_induction sumOf n terms with
  | case1 => exact blockSum_eq _
  | case2 n terms _ half front back cut ihf ihb =>
    rw [List.splitAt_eq] at cut
    cases cut
    rw [ihf, ihb, ← List.sum_append, List.take_append_drop]

end Sums

/-- From `b` to `a` the middles are those from `a` to `b`, the last one first. -/
theorem middles_reverse (a b : ℚ) {n : ℕ} (positive : 0 < n) :
    middles (1 / 2) b ((a - b) / n) n = (middles (1 / 2) a ((b - a) / n) n).reverse := by
  have nonzero : (n : ℚ) ≠ 0 := by positivity
  refine List.ext_getElem (by simp [middles]) fun k hk _ => ?_
  have below : k < n := by simpa [middles] using hk
  have mirrored : ((n - 1 - k + 1 : ℕ) : ℚ) = n - k := by
    rw [← Nat.cast_sub below.le]
    congr 1
    omega
  simp only [middles, List.getElem_reverse, List.getElem_map, List.getElem_range, List.length_map,
    List.length_range, mirrored]
  push_cast
  field_simp
  ring

/-- The sum of the values of a quadratic at the middles. -/
theorem sum_middles (c₂ c₁ c₀ a h : ℚ) (n : ℕ) :
    ((middles (1 / 2) a h n).map fun x => c₂ * x ^ 2 + c₁ * x + c₀).sum =
      n * (c₂ * a ^ 2 + c₁ * a + c₀) + (2 * c₂ * a + c₁) * h * n ^ 2 / 2 +
        c₂ * h ^ 2 * n * (4 * n ^ 2 - 1) / 12 := by
  -- with the width held fixed, one more step adds one more middle at the end
  induction n with
  | zero => simp [middles]
  | succ n ih =>
    rw [middles] at ih
    rw [middles, List.range_succ, List.map_append, List.map_append, List.sum_append, ih]
    simp only [List.map_cons, List.map_nil, List.sum_singleton]
    push_cast
    ring

end Quadrature

namespace Calculator.Value

/-- With ends that are doubles the command runs the rule in doubles, with as many steps as it is
asked for. -/
theorem integral_doubles (f : Expr) (a b : Float) {n : ℕ} (positive : 0 < n)
    (few : n ≤ 4294967296) :
    ∃ count, Number.finiteValue? count = some (n : ℚ) ∧
      integral f (doubleValue a) (doubleValue b) (intValue n) =
        (Quadrature.midpoint f a ((b - a) / count) n).map doubleValue := by
  obtain ⟨count, nearest, value, nonzero⟩ := Decimal.exists_divisor positive (by omega)
  refine ⟨count, value, ?_⟩
  have double : Number.doubleOfInt n = .ok count := by rw [Number.doubleOfInt, nearest]
  have below : isBelow (intValue 0) (intValue n) = .ok true := by
    show Except.ok (decide ((0 : ℤ) < n)) = _
    simp [positive]
  have width : join .sub (doubleValue b) (doubleValue a) = .ok (doubleValue (b - a)) := rfl
  have step : join .div (doubleValue (b - a)) (intValue n) =
      .ok (doubleValue ((b - a) / count)) := by
    have quotient : Number.div (.double (b - a)) (.int n) = .ok (.double ((b - a) / count)) := by
      simp only [Number.div, double, bind, Except.bind, Number.divDoubles, nonzero]
      rfl
    show (do return number (← Number.div (.double (b - a)) (.int n))) = _
    rw [quotient]
    rfl
  have offsets : offsetsOf (.int n) = .ok ⟨n, false⟩ := by
    show (if (9223372036854775807 : ℤ) ≤ n then _ else if (4294967296 : ℤ) < n then _ else _) = _
    rw [if_neg (by omega), if_neg (by omega)]
    rfl
  have number : (intValue n).number? = some (.int n) := rfl
  simp only [integral, below, Quadrature.between, width, step, stepSum, number, offsets, bind,
    Except.bind]
  rfl

end Calculator.Value

/-- The integral of a quadratic. -/
theorem integral_quadratic (c₂ c₁ c₀ a b : ℝ) :
    ∫ x in a..b, (c₂ * x ^ 2 + c₁ * x + c₀) =
      c₂ * (b ^ 3 - a ^ 3) / 3 + c₁ * (b ^ 2 - a ^ 2) / 2 + c₀ * (b - a) := by
  have antiderivative (x : ℝ) :
      HasDerivAt (fun x => c₂ * x ^ 3 / 3 + c₁ * x ^ 2 / 2 + c₀ * x)
        (c₂ * x ^ 2 + c₁ * x + c₀) x := by
    have cubic := ((hasDerivAt_pow 3 x).const_mul c₂).div_const 3
    have square := ((hasDerivAt_pow 2 x).const_mul c₁).div_const 2
    have linear := (hasDerivAt_id x).const_mul c₀
    refine ((cubic.add square).add linear).congr_deriv ?_
    push_cast
    ring
  rw [intervalIntegral.integral_eq_sub_of_hasDerivAt (fun x _ => antiderivative x)
    (Continuous.intervalIntegrable (by fun_prop) a b)]
  ring

namespace ExactNumber

/-- The midpoint rule from `a` to `b` in exact numbers. -/
def midpoint (f : Expr) (a b : ℚ) (steps : ℕ) : Outcome ExactNumber :=
  Quadrature.between (fun op x y => .ok (binary op x y))
    (fun h => Quadrature.midpointIn samples (fraction (1 / 2)) f (fraction a) h steps)
    (fraction a) (fraction b) (steps : ExactNumber)

/-- The value of a tree at a point of the first axis in exact numbers. -/
def valueAt (f : Expr) (x : ℚ) : Except TreeFault ExactNumber :=
  f.evalIn arithmetic [fraction x, 0, 0]

/-- The middles of the steps are exact. -/
theorem middles_fraction (a h : ℚ) (n : ℕ) :
    Quadrature.middles (fraction (1 / 2)) (fraction a) (fraction h) n =
      (Quadrature.middles (1 / 2) a h n).map fraction := by
  simp only [Quadrature.middles, List.map_map]
  rfl

theorem width_fraction (a b : ℚ) {n : ℕ} (positive : 0 < n) :
    binary .div (binary .sub (fraction b) (fraction a)) (n : ExactNumber) =
      fraction ((b - a) / n) := by
  have nonzero : (n : ℚ) ≠ 0 := by positivity
  exact if_neg nonzero

/-- The rule is the step times the sum of the values at the middles. -/
theorem midpoint_eq (f : Expr) (a b : ℚ) {n : ℕ} (positive : 0 < n) :
    midpoint f a b n = do
      let g ← ofTree (f.sampler samples 0)
      return fraction ((b - a) / n) *
        ((Quadrature.middles (1 / 2) a ((b - a) / n) n).map fun x => g (fraction x)).sum := by
  simp only [midpoint, Quadrature.between, bind, Except.bind, width_fraction a b positive,
    Quadrature.midpointIn, Quadrature.sampleSum, middles_fraction, Quadrature.pairwiseSum,
    Quadrature.sumOf_eq, List.map_map]
  rfl

/-- From `b` to `a` every tree has the opposite sum. -/
theorem midpoint_swap (f : Expr) (a b : ℚ) {n : ℕ} (positive : 0 < n) :
    midpoint f b a n = (midpoint f a b n).map neg := by
  rw [midpoint_eq f b a positive, midpoint_eq f a b positive]
  cases ofTree (f.sampler samples 0) with
  | error => rfl
  | ok g =>
    have width : fraction ((a - b) / n) = neg (fraction ((b - a) / n)) := by
      rw [neg, ← neg_sub b a, neg_div]
    show Except.ok _ = Except.ok (neg _)
    rw [Quadrature.middles_reverse a b positive, List.map_reverse, List.sum_reverse, width,
      neg_mul_eq]

/-- The tree has the values of a quadratic on the first axis. -/
def IsQuadratic (f : Expr) (c₂ c₁ c₀ : ℚ) : Prop :=
  ∀ x, valueAt f x = .ok (fraction (c₂ * x ^ 2 + c₁ * x + c₀))

/-- The sum of the samples of a quadratic. -/
theorem midpoint_of_isQuadratic {f : Expr} {c₂ c₁ c₀ : ℚ} (quadratic : IsQuadratic f c₂ c₁ c₀)
    (a b : ℚ) {n : ℕ} (positive : 0 < n) :
    midpoint f a b n = .ok (fraction ((b - a) / n *
      ((Quadrature.middles (1 / 2) a ((b - a) / n) n).map fun x =>
        c₂ * x ^ 2 + c₁ * x + c₀).sum)) := by
  rw [midpoint_eq f a b positive]
  have values (x : ℚ) :
      (f.sampler samples 0).map (· (fraction x)) =
        .ok (fraction (c₂ * x ^ 2 + c₁ * x + c₀)) :=
    (sampler_map arithmetic 0 (fraction x) f).trans (quadratic x)
  cases sampled : f.sampler samples 0 with
  | error =>
    rw [sampled] at values
    cases values 0
  | ok g =>
    have pointwise (x : ℚ) : g (fraction x) = fraction (c₂ * x ^ 2 + c₁ * x + c₀) := by
      have value := values x
      rw [sampled] at value
      exact Except.ok.inj value
    have sum (xs : List ℚ) : (xs.map fun x => g (fraction x)).sum =
        fraction (xs.map fun x => c₂ * x ^ 2 + c₁ * x + c₀).sum := by
      rw [← sum_map_fraction, List.map_map]
      exact congrArg List.sum (List.map_congr_left fun x _ => pointwise x)
    show Except.ok (_ * List.sum _) = _
    rw [sum, mul_fraction]

/-- The plain tree of a quadratic. -/
def plainQuadratic (c₂ c₁ c₀ : ℚ) : Expr :=
  .binary .add
    (.binary .add (.binary .mul (.const c₂) (.binary .pow (.var 0) (.const 2)))
      (.binary .mul (.const c₁) (.var 0)))
    (.const c₀)

/-- The tree of a quadratic as the constructors make it. -/
def builtQuadratic (c₂ c₁ c₀ : ℚ) : Expr :=
  (((Expr.const c₂).mul ((Expr.var 0).power (.const 2))).add
    ((Expr.const c₁).mul (.var 0))).add (.const c₀)

/-- A constant has one value for all samples. -/
theorem isQuadratic_const (c : ℚ) : IsQuadratic (.const c) 0 0 c := by
  intro x
  rw [zero_mul, zero_mul, zero_add, zero_add]
  rfl

/-- The plain tree of a quadratic has its values. -/
theorem isQuadratic_plain (c₂ c₁ c₀ : ℚ) : IsQuadratic (plainQuadratic c₂ c₁ c₀) c₂ c₁ c₀ := by
  intro x
  have square : join .pow x 2 = fraction (x ^ 2) := by
    rw [join, if_pos ⟨rfl, fun _ => by norm_num⟩]
    rfl
  show Except.ok (binary .add (binary .add (binary .mul _ (join .pow x 2)) _) _) = _
  rw [square]
  rfl

/-- A point of the first axis. -/
def firstAxis (x : ℚ) : Axis → ℚ
  | .x => x
  | .y | .z => 0

/-- The tree that the constructors build has them as well. -/
theorem isQuadratic_built (c₂ c₁ c₀ : ℚ) : IsQuadratic (builtQuadratic c₂ c₁ c₀) c₂ c₁ c₀ := by
  intro x
  have L := lawful_fractions (RingHom.id ℚ)
  have H := Expr.hereditary_fraction
  have square : (fractions (RingHom.id ℚ)).value (firstAxis x)
      ((Expr.var 0).power (.const 2)) = some (x ^ 2) :=
    Interpretation.value_join .pow rfl rfl (L.pow_natCast x 2)
  have canonical : ((Expr.var 0).power (.const 2)).Canonical :=
    Expr.canonical_power trivial trivial
  refine evalIn_of_value (p := firstAxis x) ?_ ?_
  · exact H.add (H.add (H.mul trivial ⟨trivial, 2, rfl, trivial⟩) (H.mul trivial trivial)) trivial
  · refine L.value_add (L.value_add ?_ ?_) rfl
    · exact L.value_mul trivial canonical rfl square
    · exact L.value_mul trivial trivial rfl rfl

/-- The rule for a quadratic misses the integral by a term that does not depend on the other
coefficients or the place of the interval. So it is exact for lines and constants. From `b` to `a`
it has the opposite value. A quadratic is any tree with these values, such as a constant, the plain
tree and the one that the constructors make. -/
theorem midpoint_quadratic (c₂ c₁ c₀ : ℚ) :
    IsQuadratic (.const c₀) 0 0 c₀ ∧
    IsQuadratic (plainQuadratic c₂ c₁ c₀) c₂ c₁ c₀ ∧
    IsQuadratic (builtQuadratic c₂ c₁ c₀) c₂ c₁ c₀ ∧
    ∀ {f : Expr}, IsQuadratic f c₂ c₁ c₀ → ∀ (a b : ℚ) {n : ℕ}, 0 < n →
      ∃ m : ℚ, midpoint f a b n = .ok (fraction m) ∧
        (m : ℝ) =
          (∫ x in (a : ℝ)..b, (c₂ * x ^ 2 + c₁ * x + c₀)) - c₂ * (b - a) ^ 3 / (12 * n ^ 2) ∧
        (c₂ = 0 → (m : ℝ) = ∫ x in (a : ℝ)..b, (c₁ * x + c₀ : ℝ)) ∧
        midpoint f b a n = .ok (fraction (-m)) := by
  refine ⟨isQuadratic_const c₀, isQuadratic_plain c₂ c₁ c₀, isQuadratic_built c₂ c₁ c₀,
    fun {f} quadratic a b n positive => ?_⟩
  have sum := midpoint_of_isQuadratic quadratic a b positive
  have nonzero : (n : ℝ) ≠ 0 := by positivity
  have missed : (((b - a) / n * ((Quadrature.middles (1 / 2) a ((b - a) / n) n).map fun x =>
      c₂ * x ^ 2 + c₁ * x + c₀).sum : ℚ) : ℝ) =
        (∫ x in (a : ℝ)..b, (c₂ * x ^ 2 + c₁ * x + c₀)) - c₂ * (b - a) ^ 3 / (12 * n ^ 2) := by
    rw [Quadrature.sum_middles, integral_quadratic]
    push_cast
    field_simp
    ring
  refine ⟨_, sum, missed, ?_, ?_⟩
  · rintro rfl
    rw [missed]
    simp
  · rw [midpoint_swap f a b positive, sum]
    rfl

/-- Three steps from two down to minus one. -/
theorem midpoint_quadratic_backward :
    ∃ m : ℚ, midpoint (builtQuadratic 3 (-1 / 2) 5) 2 (-1) 3 = .ok (fraction m) ∧
      (m : ℝ) = (∫ x in (2 : ℝ)..(-1), (3 * x ^ 2 - x / 2 + 5)) + 3 / 4 := by
  obtain ⟨-, -, built, rule⟩ := midpoint_quadratic 3 (-1 / 2) 5
  obtain ⟨m, sum, missed, -, -⟩ := rule built 2 (-1) (n := 3) (by decide)
  have same (x : ℝ) : 3 * x ^ 2 - x / 2 + 5 = 3 * x ^ 2 + (-1 / 2 : ℚ) * x + 5 := by
    push_cast
    ring
  refine ⟨m, sum, ?_⟩
  simp only [same]
  rw [missed]
  norm_num

end ExactNumber

end Fluxion
