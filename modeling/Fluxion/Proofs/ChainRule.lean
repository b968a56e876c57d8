import Fluxion.Proofs.OuterDerivative
import Fluxion.Proofs.Powers

/-!
# The chain rule

The tree `outer k a` is rebuilt by the constructors around an arbitrary argument. It is defined
wherever the function of `k` is smooth at the value of `a`, and its value there is the derivative of
that function, with one exception (`value_chain_rule`). A power of a power is folded, so the root
that the derivatives of `asinh` and `acosh` take becomes a plain power where the tree under the root
has collapsed to a power: `((1 + x^2)^(1/2))^2 - 1` is `x^2`, and its root is `x`. Where half of the
exponent is odd and the base is negative, such a root has the wrong sign (`FoldsBack`), and so has
the derivative.
-/

namespace Fluxion.Expr
set_option autoImplicit false

variable {p : Axis → ℝ} {f a : Expr} {u v : ℝ}

/-- The tree is a power of a negative base, and half of its exponent is odd. -/
def NegatedRoot (p : Axis → ℝ) (f : Expr) : Prop :=
  ∃ u x, ∃ n : ℤ, f = binary .pow u (const (2 * (2 * n + 1))) ∧ exact.value p u = some x ∧ x < 0

/-- The derivative of the function at the tree takes a root that has the wrong sign. -/
def FoldsBack (p : Axis → ℝ) : Kind → Expr → Prop
  | .asinh, a => NegatedRoot p (add (powr a 2) (const 1))
  | .acosh, a => NegatedRoot p (sub (powr a 2) (const 1))
  | _, _ => False

/-- The root of a power of a negative base, half of whose exponent is `m`. -/
theorem sqrt_zpow_of_neg {x : ℝ} (neg : x < 0) (m : ℤ) :
    √(x ^ (2 * m)) = if Odd m then -x ^ m else x ^ m := by
  rw [mul_comm, zpow_mul, zpow_two, Real.sqrt_mul_self_eq_abs]
  split
  · rename_i odd
    exact abs_of_neg (odd.zpow_neg neg)
  · rename_i even
    exact abs_of_pos ((Int.not_odd_iff_even.1 even).zpow_pos neg.ne)

/-- A positive power of a negative base has an even exponent. -/
theorem even_of_pow_pos {x c : ℝ} (neg : x < 0) (defined : PowDefined x c) (positive : 0 < x ^ c) :
    ∃ m : ℤ, c = 2 * m := by
  by_contra odd
  rcases base_pos_of_pow_pos defined positive fun n same => absurd ⟨n, same⟩ odd with pos | zero
  · exact lt_asymm neg pos
  · exact odd ⟨0, by simp [zero]⟩

/-- The root of a power is a power of its base. -/
theorem sqrt_pow (f : Expr) (c : Rat) :
    sqrt (binary .pow f (const c)) = powr f (c * (1 / 2)) := by
  rw [sqrt, powr, if_neg (by norm_num), if_neg (by norm_num)]

/-- A power to an integer constant, whose base is no power with a constant exponent. -/
theorem value_powr_intCast {c : Rat} {x : ℝ} (canonical : (binary .pow f (const c)).Canonical)
    (hx : exact.value p f = some x) (nonzero : x ≠ 0) (m : ℤ) :
    exact.value p (powr f m) = some (x ^ m) := by
  have power : exact.pow x (exact.num m) = some (x ^ m) := by
    rw [pow_reals_eq_some, num_reals, Rat.cast_intCast]
    exact ⟨powDefined_intCast (.inl nonzero), Real.rpow_intCast x m⟩
  exact (lawful_reals _).value_powr_base canonical hx power

/-- The root of a power of a negative base. -/
theorem value_sqrt_of_neg {c : Rat} {x : ℝ} (canonical : (binary .pow f (const c)).Canonical)
    (hx : exact.value p f = some x) (neg : x < 0)
    (hv : exact.value p (binary .pow f (const c)) = some v) (positive : 0 < v) :
    ∃ m : ℤ, c = 2 * m ∧
      exact.value p (sqrt (binary .pow f (const c))) = some (if Odd m then -√v else √v) := by
  obtain ⟨_, hc, power⟩ := Interpretation.value_rhs hx hv
  cases hc
  obtain ⟨defined, rfl⟩ := pow_reals_eq_some.1 power
  obtain ⟨m, hm⟩ := even_of_pow_pos neg defined positive
  have even : c = 2 * m := by
    rw [num_reals] at hm
    exact_mod_cast hm
  subst even
  refine ⟨m, rfl, ?_⟩
  have half : (2 * (m : ℚ)) * (1 / 2) = m := by ring
  rw [sqrt_pow, half, value_powr_intCast canonical hx neg.ne]
  have root := sqrt_zpow_of_neg neg m
  have whole : x ^ (exact.num (2 * (m : ℚ))) = x ^ (2 * m) := by
    rw [num_reals, ← Real.rpow_intCast]
    push_cast
    rfl
  rw [whole, root]
  split
  · rw [neg_neg]
  · rfl

/-- The root of a tree is the root of its value, or the negative of it. -/
theorem value_sqrt_reals (canonical : f.Canonical) (hv : exact.value p f = some v)
    (positive : 0 < v) :
    (¬ NegatedRoot p f → exact.value p (sqrt f) = some √v) ∧
      (NegatedRoot p f → exact.value p (sqrt f) = some (-√v)) := by
  constructor
  · intro plain
    by_cases powerOfNeg : ∃ u c x, f = binary .pow u (const c) ∧ exact.value p u = some x ∧ x < 0
    · obtain ⟨u, c, x, rfl, hx, neg⟩ := powerOfNeg
      obtain ⟨m, rfl, root⟩ := value_sqrt_of_neg canonical hx neg hv positive
      rw [root, if_neg]
      rintro ⟨n, rfl⟩
      exact plain ⟨u, x, n, by push_cast; rfl, hx, neg⟩
    · have base : Foldable realFunction p f := fun u c x same hx =>
        not_lt.1 fun neg => powerOfNeg ⟨u, c, x, same, hx, neg⟩
      have defined : PowDefined v ((1 / 2 : ℚ) : ℝ) := .inl positive
      refine (value_powr_reals canonical hv defined (.inr base)).trans (congrArg some ?_)
      rw [Real.sqrt_eq_rpow]
      norm_num
  · rintro ⟨u, x, n, rfl, hx, neg⟩
    obtain ⟨m, same, root⟩ := value_sqrt_of_neg canonical hx neg hv positive
    have half : m = 2 * n + 1 := by
      have : (2 * n + 1 : ℚ) = m := mul_left_cancel₀ two_ne_zero same
      exact_mod_cast this.symm
    rw [root, if_pos ⟨n, half⟩]

/-- The reciprocal of the root of a tree. -/
theorem value_one_div_sqrt (canonical : f.Canonical) (hv : exact.value p f = some v)
    (positive : 0 < v) :
    (¬ NegatedRoot p f → exact.value p (div (const 1) (sqrt f)) = some (1 / √v)) ∧
      (NegatedRoot p f → exact.value p (div (const 1) (sqrt f)) = some (-(1 / √v))) := by
  have nonzero : √v ≠ 0 := (Real.sqrt_pos.2 positive).ne'
  obtain ⟨plain, negated⟩ := value_sqrt_reals canonical hv positive
  constructor
  · intro h
    exact value_quotient value_one (plain h) nonzero
  · intro h
    rw [← div_neg]
    exact value_quotient value_one (negated h) (neg_ne_zero.2 nonzero)

/-- The trees of the derivatives have the values of the table, or the negatives of them where a root
folds back. -/
theorem value_outer_or_neg {k : Kind} (canonical : a.Canonical) (ha : exact.value p a = some u)
    (smooth : k.SmoothAt u) :
    (¬ FoldsBack p k a → exact.value p (outer k a) = some (k.slope u)) ∧
      (FoldsBack p k a → exact.value p (outer k a) = some (-k.slope u)) := by
  have L := lawful_reals realFunction
  have square := L.value_square canonical ha
  have squared : (powr a 2).Canonical := canonical_powr 2 canonical
  have constant : (const 1).Canonical := trivial
  cases k with
  | asinh =>
    have positive : 0 < u * u + 1 := by nlinarith [mul_self_nonneg u]
    have sum := L.value_add square value_one
    have root := value_one_div_sqrt (canonical_add squared constant) sum positive
    rwa [← sq] at root
  | acosh =>
    have above : 1 < u := smooth
    have positive : 0 < u * u - 1 := by nlinarith
    have difference := L.value_sub square value_one
    have root := value_one_div_sqrt (canonical_sub squared constant) difference positive
    rwa [← sq] at root
  | _ => exact ⟨fun _ => value_outer canonical (by simp) ha smooth, False.elim⟩

/-- Where the function of `k` is smooth at the value of a canonical tree, the tree of its derivative
is defined and has the derivative as its value, and the derivative of the call follows the chain
rule. Where a root folds back, both have the opposite sign. -/
theorem value_chain_rule {k : Kind} (canonical : a.Canonical) (ha : exact.value p a = some u)
    (smooth : k.SmoothAt u) :
    (¬ FoldsBack p k a → exact.value p (outer k a) = some (deriv k.function u)) ∧
    (FoldsBack p k a → exact.value p (outer k a) = some (-deriv k.function u)) ∧
    ∀ along da s, a.derivative along = .ok da → exact.value p da = some s →
      ∃ d, (special k a).derivative along = .ok d ∧
        (¬ FoldsBack p k a → exact.value p d = some (s * deriv k.function u)) ∧
        (FoldsBack p k a → exact.value p d = some (s * -deriv k.function u)) := by
  have L := lawful_reals realFunction
  have table : deriv k.function u = k.slope u := (Kind.hasDerivAt_function smooth).deriv
  rw [table]
  obtain ⟨plain, negated⟩ := value_outer_or_neg canonical ha smooth
  refine ⟨plain, negated, ?_⟩
  intro along da s hda hs
  have inner := stable_canonical.derivative canonical hda
  have outer := stable_canonical.outer k canonical
  refine ⟨mul da (Expr.outer k a), by rw [derivative, hda]; rfl, ?_, ?_⟩
  · intro h
    exact L.value_mul inner outer hs (plain h)
  · intro h
    exact L.value_mul inner outer hs (negated h)

/-- The derivative of `asinh(x ^ 2)` along `x`, at `x = 2`. -/
theorem value_chain_rule_asinh_square :
    let p : Axis → ℝ := fun _ => 2
    let a := binary .pow (var 0) (const 2)
    exact.value p (outer .asinh a) = some (deriv Real.arsinh 4) ∧
      ∃ d, (special .asinh a).derivative .x = .ok d ∧
        exact.value p d = some (4 * deriv Real.arsinh 4) := by
  intro p a
  have canonical : a.Canonical := ⟨trivial, trivial, by norm_num [Op.apply, power, powr]⟩
  have value : exact.value p a = some 4 :=
    Interpretation.value_join .pow rfl rfl
      (pow_reals_eq_some.2 ⟨.inl two_pos, by norm_num [num_reals, p]⟩)
  have plain : ¬ FoldsBack p .asinh a := by
    rintro ⟨u, x, n, same, -⟩
    have collapsed := add_one_not_power (f := powr a 2) (by norm_num [a, powr, isSum])
    rw [same] at collapsed
    contradiction
  obtain ⟨outer, -, chain⟩ := value_chain_rule canonical value (k := .asinh) trivial
  obtain ⟨d, hd, product, -⟩ := chain .x _ 4 derivative_square
    (Interpretation.value_join .mul rfl rfl (by norm_num [Interpretation.join, num_reals, p]))
  exact ⟨outer plain, d, hd, product plain⟩

/-- The derivative of `acosh` at the root of `1 + x ^ 2` has the wrong sign at `x = -1`. -/
theorem outer_acosh_of_root :
    let p : Axis → ℝ := fun _ => -1
    let a := binary .pow (binary .add (const 1) (binary .pow (var 0) (const 2))) (const (1 / 2))
    a.Canonical ∧ exact.value p a = some √2 ∧ Kind.acosh.SmoothAt √2 ∧
      exact.value p (outer .acosh a) = some (-1) ∧ deriv Kind.acosh.function √2 = 1 := by
  intro p a
  have canonical : a.Canonical := by
    refine ⟨⟨trivial, ⟨trivial, trivial, ?_⟩, ?_⟩, trivial, ?_⟩
    · norm_num [Op.apply, power, powr]
    · simp [Op.apply, add, collect, coefficient]
    · norm_num [Op.apply, power, powr]
  have square : exact.value p (binary .pow (var 0) (const 2)) = some 1 := by
    refine Interpretation.value_join .pow rfl rfl (pow_reals_eq_some.2 ⟨?_, ?_⟩)
    · exact .inr (.inr ⟨by norm_num [p], 2, by norm_num [num_reals]⟩)
    · norm_num [num_reals, p]
  have sum := Interpretation.value_join .add (value_one (p := p)) square rfl
  have value : exact.value p a = some √2 := by
    refine Interpretation.value_join .pow sum rfl (pow_reals_eq_some.2 ⟨.inl (by norm_num), ?_⟩)
    rw [Real.sqrt_eq_rpow, num_reals]
    norm_num
  have smooth : Kind.acosh.SmoothAt √2 := Real.lt_sqrt_of_sq_lt (by norm_num)
  have slope : Kind.acosh.slope √2 = 1 := by norm_num [Kind.slope]
  have folds : FoldsBack p .acosh a := by
    refine ⟨var 0, -1, 0, ?_, rfl, by norm_num⟩
    simp [a, powr, sub]
  refine ⟨canonical, value, smooth, ?_, ?_⟩
  · rw [(value_outer_or_neg canonical value smooth).2 folds, slope]
  · rw [(Kind.hasDerivAt_function smooth).deriv, slope]

end Fluxion.Expr
