import Fluxion.Proofs.Jets

/-!
# Values of powers

`power` folds a power of a power into one power, and takes a power of `e` to a multiple of a
logarithm for a power of its argument. Over the reals the first of these is not sound in general:
`(x ^ 2) ^ (1/2)` becomes `x`. It is sound where the outer exponent is an integer, and where the
base is nonnegative. So a power has the value that it should wherever the exponent is an integer
constant or the bases under constant exponents are nonnegative (`value_power`).
-/

namespace Fluxion
set_option autoImplicit false

/-- A power of a power of a nonnegative base. -/
theorem rpow_mul_of_powDefined {u c r : ℝ} (nonneg : 0 ≤ u) (nonzero : c ≠ 0)
    (inner : PowDefined u c) (outer : PowDefined (u ^ c) r) :
    PowDefined u (c * r) ∧ u ^ (c * r) = (u ^ c) ^ r := by
  refine ⟨?_, Real.rpow_mul nonneg c r⟩
  rcases nonneg.eq_or_lt' with rfl | pos
  · have hc : 0 ≤ c := by
      rcases inner with pos | ⟨-, hc⟩ | ⟨neg, -⟩
      · exact absurd pos (lt_irrefl 0)
      · exact hc
      · exact absurd neg (lt_irrefl 0)
    rw [Real.zero_rpow nonzero] at outer
    rcases outer with pos | ⟨-, hr⟩ | ⟨neg, -⟩
    · exact absurd pos (lt_irrefl 0)
    · exact .inr (.inl ⟨rfl, mul_nonneg hc hr⟩)
    · exact absurd neg (lt_irrefl 0)
  · exact .inl pos

namespace Expr

variable {named : Kind → ℝ → Option ℝ} {p : Axis → ℝ} {f g : Expr} {a b : ℝ}

/-- If the tree is a power with a constant exponent, its base is nonnegative at the point. -/
def Foldable (named : Kind → ℝ → Option ℝ) (p : Axis → ℝ) (f : Expr) : Prop :=
  ∀ u c x, f = binary .pow u (const c) → (reals named).value p u = some x → 0 ≤ x

/-- A power to a constant exponent: nested powers are folded by the rule for integer exponents or
by the rule for nonnegative bases. -/
theorem value_powr_reals {r : ℚ} (canonical : f.Canonical)
    (ha : (reals named).value p f = some a) (defined : PowDefined a r)
    (foldable : (∃ n : ℤ, r = n) ∨ Foldable named p f) :
    (reals named).value p (powr f r) = some (a ^ (r : ℝ)) := by
  have L := lawful_reals named
  have whole : (reals named).pow a ((reals named).num r) = some (a ^ (r : ℝ)) :=
    pow_reals_eq_some.2 ⟨defined, rfl⟩
  refine L.value_powr canonical ha whole ?_
  intro u c x same hx
  subst same
  obtain ⟨_, hc, inner⟩ := Interpretation.value_rhs hx ha
  cases hc
  rcases foldable with ⟨n, rfl⟩ | base
  · exact L.pow_mul_intCast n inner whole
  · have nonneg : 0 ≤ x := base u c x rfl hx
    have nonzero : (c : ℝ) ≠ 0 := by exact_mod_cast canonical.exponent_ne_zero
    obtain ⟨innerDefined, rfl⟩ := pow_reals_eq_some.1 inner
    obtain ⟨folded, same⟩ := rpow_mul_of_powDefined nonneg nonzero innerDefined defined
    rw [pow_reals_eq_some, num_reals, Rat.cast_mul]
    exact ⟨folded, same⟩

/-- A power of `e` to a multiple of a logarithm is a power of the argument. -/
theorem exp_rpow_mul_log {x : ℝ} (positive : 0 < x) (c : ℝ) :
    Real.exp 1 ^ (c * Real.log x) = x ^ c := by
  rw [Real.exp_one_rpow, Real.rpow_def_of_pos positive, mul_comm]

/-- Where canonical trees have values and the power of these is defined, the tree that `power` makes
has it as its value, as long as the exponent is an integer constant or the bases under constant
exponents are nonnegative. -/
theorem value_power (log : ∀ u w, named .ln u = some w ↔ 0 < u ∧ w = Real.log u)
    (hf : f.Canonical) (hg : g.Canonical) (ha : (reals named).value p f = some a)
    (hb : (reals named).value p g = some b) (defined : PowDefined a b)
    (foldable : (∃ n : ℤ, g = const n) ∨
      f.All (Foldable named p) ∧ g.All (Foldable named p)) :
    (reals named).value p (power f g) = some (a ^ b) := by
  fun_cases power f g with
  | case1 r =>
    cases hb
    refine value_powr_reals hf ha defined (foldable.imp ?_ fun bases => bases.1.self)
    rintro ⟨n, same⟩
    cases same
    exact ⟨n, rfl⟩
  | case2 _ one =>
    subst one
    rw [Interpretation.value_const, map_one] at ha ⊢
    cases ha
    rw [Real.one_rpow]
  | case3 _ overE l =>
    subst overE
    cases ha
    obtain ⟨x, hx, logarithm⟩ := Interpretation.value_special_eq_some.1 hb
    obtain ⟨positive, rfl⟩ := (log x b).1 logarithm
    have power := exp_rpow_mul_log positive 1
    rw [one_mul, Real.rpow_one] at power
    rw [hx]
    exact congrArg some power.symm
  -- The logarithm has a positive argument, so its power is defined whatever the coefficient.
  | case4 _ overE c l =>
    subst overE
    cases ha
    obtain ⟨y, hy, product⟩ := Interpretation.value_rhs (Interpretation.value_const ..) hb
    cases product
    obtain ⟨x, hx, logarithm⟩ := Interpretation.value_special_eq_some.1 hy
    obtain ⟨positive, rfl⟩ := (log x y).1 logarithm
    have bases : l.All (Foldable named p) := by
      rcases foldable with ⟨n, same⟩ | ⟨-, bases⟩
      · contradiction
      · exact (all_special.1 (all_binary.1 bases).2.2).2
    have canonical : l.Canonical := hg.2.1
    refine (value_powr_reals (r := c) canonical hx (.inl positive) (.inr bases.self)).trans ?_
    refine congrArg some ?_
    exact (exp_rpow_mul_log positive c).symm
  | case5 | case6 =>
    exact Interpretation.value_join .pow ha hb (pow_reals_eq_some.2 ⟨defined, rfl⟩)

/-- The cube root of `x ^ 3` at `x = 2`. -/
theorem value_power_cube_root :
    let p : Axis → ℝ := fun _ => 2
    let cube := binary .pow (var 0) (const 3)
    exact.value p cube = some (2 ^ (3 : ℝ)) ∧
      exact.value p (power cube (const (1 / 3))) = some ((2 ^ (3 : ℝ)) ^ ((1 / 3 : ℚ) : ℝ)) := by
  intro p cube
  have log (u w : ℝ) : realFunction .ln u = some w ↔ 0 < u ∧ w = Real.log u := by
    unfold realFunction
    by_cases positive : 0 < u
    · simp [Kind.DefinedAt, Kind.function, positive, eq_comm]
    · simp [Kind.DefinedAt, positive]
  have canonical : cube.Canonical :=
    ⟨trivial, trivial, by norm_num [cube, Op.apply, Expr.power, powr]⟩
  have value : exact.value p cube = some (2 ^ (3 : ℝ)) :=
    Interpretation.value_join .pow rfl rfl
      (pow_reals_eq_some.2 ⟨.inl two_pos, by norm_num [num_reals, p]⟩)
  have leaf (c : Rat) : (const c).All (Foldable realFunction p) := by
    refine all_const.2 ?_
    intro u c x same
    contradiction
  have bases : cube.All (Foldable realFunction p) := by
    refine all_binary.2 ⟨?_, ?_, leaf 3⟩
    · intro u c x same hx
      cases same
      cases hx
      exact two_pos.le
    · intro s hs u c x same
      obtain rfl := List.mem_singleton.1 hs
      contradiction
  have positive : (0 : ℝ) < 2 ^ (3 : ℝ) := Real.rpow_pos_of_pos two_pos 3
  have third : (const (1 / 3)).Canonical := trivial
  exact ⟨value, value_power log canonical third value (Interpretation.value_const exact p _)
    (.inl positive) (.inr ⟨bases, leaf _⟩)⟩

end Expr

end Fluxion
