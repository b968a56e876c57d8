import Fluxion.Proofs.Differentiation
import Fluxion.Proofs.Jets

/-!
# Roots of powers

A power of a power is simplified to one power, and `(x ^ 2) ^ (1/2)` is not `x` where `x` is
negative. Differentiation takes roots of new trees in two places. The derivatives of `asinh` and
`acosh` hold the root of a sum, and the sum may collapse to a power: `((1 + x^2)^(1/2))^2 - 1` is
`x^2`. And a varying power over another base than `e` becomes a power over `e`, which undoes a
logarithm. In both places everything that may end up under the root comes from the tree itself, so
nothing goes wrong at a point where its even powers have nonnegative bases (`Rooted`).
-/

namespace Fluxion
set_option autoImplicit false

namespace Expr

/-- The base of an even power is nonnegative. -/
def NonnegativeBase (p : Axis → ℝ) (f : Expr) : Prop :=
  ∀ u n x, f = binary .pow u (const (2 * (n : ℤ))) → exact.value p u = some x → 0 ≤ x

/-- Every even power in the tree has a nonnegative base. -/
abbrev Rooted (p : Axis → ℝ) : Expr → Prop := All (NonnegativeBase p)

/-- Whether the derivative of the tree takes a root of what it makes from the operands. -/
def TakesRoot : Expr → Prop
  | special k _ => k = .asinh ∨ k = .acosh
  | binary .pow u w => u ≠ e ∧ w.isConst = false
  | _ => False

/-- Wherever the derivative takes roots, even powers have nonnegative bases. -/
abbrev Guarded (p : Axis → ℝ) : Expr → Prop := All fun s => s.TakesRoot → s.Rooted p

variable {p : Axis → ℝ} {f g : Expr}

/-- An even power of constants that is not folded is a power of zero. -/
theorem nonnegativeBase_surd {c r : Rat}
    (h : constPow c r = binary .pow (const c) (const r)) :
    NonnegativeBase p (binary .pow (const c) (const r)) := by
  rintro u n x same hx
  cases same
  have zero : c = 0 := by
    by_contra nonzero
    have integer : (2 * (n : ℚ)).den = 1 := by exact_mod_cast Rat.den_intCast (2 * n)
    obtain ⟨q, folded⟩ := constPow_eq_const nonzero integer
    rw [h] at folded
    contradiction
  subst zero
  rw [Interpretation.value_const, map_zero] at hx
  cases hx
  exact le_rfl

/-- Sums and differences ask nothing of the bases of powers. -/
theorem additive_rooted (p : Axis → ℝ) : Additive (Rooted p) where
  toScalable := scalable_all (fun _ _ _ _ h => nomatch h) (fun _ _ _ _ _ h => nomatch h)
    (fun _ _ _ _ h => nomatch h) nonnegativeBase_surd
  sum hf hg := all_binary.2 ⟨fun _ _ _ h => (nomatch h), hf, hg⟩
  difference hf hg := all_binary.2 ⟨fun _ _ _ h => (nomatch h), hf, hg⟩

theorem hereditary_guarded (p : Axis → ℝ) : Hereditary (Guarded p) where
  toScalable := scalable_all (fun _ h => h.elim) (fun _ _ h => h.elim) (fun _ h => h.elim)
    (fun _ h => nomatch h.2)
  sum hf hg := all_binary.2 ⟨fun h => h.elim, hf, hg⟩
  difference hf hg := all_binary.2 ⟨fun h => h.elim, hf, hg⟩
  constPower hf _ := all_binary.2 ⟨fun h => (nomatch h.2), hf, all_const.2 fun h => h.elim⟩

/-- The base of a power with a varying exponent is positive. -/
def PositiveBase (p : Axis → ℝ) (f : Expr) : Prop :=
  ∀ u w x, f = binary .pow u w → w.isConst = false → exact.value p u = some x → 0 < x

theorem hereditary_positiveBase (p : Axis → ℝ) : Hereditary (All (PositiveBase p)) where
  toScalable := scalable_all (fun _ _ _ _ h => nomatch h) (fun _ _ _ _ _ h => nomatch h)
    (fun _ _ _ _ h => nomatch h) fun _ _ _ _ h varying => by cases h; contradiction
  sum hf hg := all_binary.2 ⟨fun _ _ _ h => (nomatch h), hf, hg⟩
  difference hf hg := all_binary.2 ⟨fun _ _ _ h => (nomatch h), hf, hg⟩
  constPower hf _ := all_binary.2
    ⟨fun _ _ _ h varying => by cases h; contradiction, hf, all_const.2 fun _ _ _ h => nomatch h⟩

/-- The arguments of the logarithms in the tree are rooted. -/
abbrev RootedLogs (p : Axis → ℝ) : Expr → Prop :=
  All fun s => ∀ a, s = special .ln a → a.Rooted p

theorem Rooted.logs (h : f.Rooted p) : f.RootedLogs p := by
  rintro s hs a rfl
  exact all_of_mem h (subtrees_trans (arg_mem_subtrees .ln a) hs)

theorem rooted_special {k : Kind} (h : f.Rooted p) : (special k f).Rooted p :=
  all_special.2 ⟨fun _ _ _ h => (nomatch h), h⟩

theorem multiplicative_rootedLogs (p : Axis → ℝ) : Multiplicative (RootedLogs p) where
  toScalable := scalable_all (fun _ _ h => nomatch h) (fun _ _ _ h => nomatch h)
    (fun _ _ h => nomatch h) (fun _ _ h => nomatch h)
  constPower hf _ := all_binary.2 ⟨fun _ h => (nomatch h), hf, all_const.2 fun _ h => nomatch h⟩

/-- The sums in the tree are in `f`. -/
abbrev SumsIn (f : Expr) : Expr → Prop := All fun s => s.isSum = true → s ∈ f.subtrees

/-- A power joins no sums: all of them come from the base. -/
theorem multiplicative_sumsIn (f : Expr) : Multiplicative (SumsIn f) where
  toScalable := scalable_all (fun _ h => nomatch h) (fun _ _ h => nomatch h)
    (fun _ h => nomatch h) (fun _ h => nomatch h)
  constPower hf _ := all_binary.2 ⟨fun h => (nomatch h), hf, all_const.2 fun h => nomatch h⟩

/-- A power that comes to a sum is a part of its base. -/
theorem rooted_powr_of_isSum {r : Rat} (h : f.Rooted p) (sum : (powr f r).isSum = true) :
    (powr f r).Rooted p := by
  have sums : SumsIn f (powr f r) := (multiplicative_sumsIn f).powr r fun s hs _ => hs
  exact all_of_mem h (sums.self sum)

/-- Collecting with a constant makes no power. -/
theorem collect_const_not_power {op : Op} {merge : Rat → Rat → Rat} (c : Rat) (hop : op ≠ .pow) :
    (collect op merge f (const c)).isBinary .pow = false := by
  unfold collect
  split
  · rename_i same
    rw [same]
    rfl
  · simp [isBinary, hop]

/-- Collecting a constant with a tree never makes a power. -/
theorem const_collect_not_power {op : Op} {merge : Rat → Rat → Rat} (c : Rat) (hop : op ≠ .pow) :
    (collect op merge (const c) f).isBinary .pow = false := by
  unfold collect
  split
  · rfl
  · simp [isBinary, hop]

/-- A power comes out of a sum with one only where a sum went in. -/
theorem add_one_not_power (plain : f.isSum = false) :
    (add f (const 1)).isBinary .pow = false := by
  have one : const 1 ≠ const 0 := by decide
  unfold add
  rw [if_neg one]
  split
  · rfl
  · split
    · rfl
    · contradiction
    · contradiction
    · rename_i notConst _ _
      rw [if_neg (notConst 1)]
      exact collect_const_not_power 1 (by decide)

theorem sub_one_not_power (plain : f.isSum = false) :
    (sub f (const 1)).isBinary .pow = false := by
  have one : const 1 ≠ const 0 := by decide
  unfold sub
  rw [if_neg one]
  split
  · rfl
  · split
    · rfl
    · contradiction
    · contradiction
    · exact collect_const_not_power 1 (by decide)

theorem one_sub_not_power (f : Expr) : (sub (const 1) f).isBinary .pow = false := by
  unfold sub
  split
  · rfl
  · split
    · rfl
    · dsimp only
      split
      · rfl
      · rw [if_neg one_ne_zero]
        exact const_collect_not_power 1 (by decide)

/-- What is under the root in the derivative of `asinh`. -/
theorem rooted_add_one (h : f.Rooted p) (power : (add (powr f 2) (const 1)).isBinary .pow = true) :
    (add (powr f 2) (const 1)).Rooted p := by
  have H := additive_rooted p
  refine H.add (rooted_powr_of_isSum h ?_) (H.const 1)
  by_contra plain
  rw [add_one_not_power (by simpa using plain)] at power
  contradiction

/-- What is under the root in the derivative of `acosh`. -/
theorem rooted_sub_one (h : f.Rooted p) (power : (sub (powr f 2) (const 1)).isBinary .pow = true) :
    (sub (powr f 2) (const 1)).Rooted p := by
  have H := additive_rooted p
  refine H.sub (rooted_powr_of_isSum h ?_) (H.const 1)
  by_contra plain
  rw [sub_one_not_power (by simpa using plain)] at power
  contradiction

/-- The base of a power is positive where the power is, even powers of negative bases aside. -/
theorem base_pos_of_pow_pos {x c : ℝ} (h : PowDefined x c) (positive : 0 < x ^ c)
    (even : ∀ n : ℤ, c = 2 * n → 0 ≤ x) : 0 < x ∨ c = 0 := by
  rcases h with pos | ⟨rfl, -⟩ | ⟨neg, n, rfl⟩
  · exact .inl pos
  · right
    by_contra nonzero
    rw [Real.zero_rpow nonzero] at positive
    exact lt_irrefl 0 positive
  · rw [Real.rpow_intCast] at positive
    rcases Int.even_or_odd' n with ⟨m, rfl | rfl⟩
    · exact absurd (even m (by push_cast; rfl)) neg.not_ge
    · have negative := (odd_two_mul_add_one m).zpow_neg neg
      exact absurd positive negative.not_gt

/-- The base of a positive power in a rooted tree is positive. -/
theorem Rooted.base_pos {u : Expr} {c : Rat} {x v : ℝ} (h : (binary .pow u (const c)).Rooted p)
    (canonical : (binary .pow u (const c)).Canonical) (hx : exact.value p u = some x)
    (hv : exact.pow x (exact.num c) = some v) (positive : 0 < v) : 0 < x := by
  obtain ⟨defined, rfl⟩ := pow_reals_eq_some.1 hv
  rw [num_reals] at defined positive
  have nonzero : (c : ℝ) ≠ 0 := by exact_mod_cast canonical.exponent_ne_zero
  refine (base_pos_of_pow_pos defined positive fun n hn => ?_).resolve_right nonzero
  have even : c = 2 * (n : ℤ) := by exact_mod_cast hn
  subst even
  exact h.self u n x rfl hx

/-- The root of a tree with a positive value is the positive root. -/
theorem value_sqrt {v : ℝ} (canonical : f.Canonical)
    (rooted : f.isBinary .pow = true → f.Rooted p) (hv : exact.value p f = some v)
    (positive : 0 < v) : exact.value p (sqrt f) = some √v := by
  have root : exact.pow v (exact.num (1 / 2)) = some √v := by
    rw [pow_reals_eq_some, Real.sqrt_eq_rpow]
    exact ⟨.inl positive, by norm_num [num_reals]⟩
  refine (lawful_reals _).value_powr canonical hv root ?_
  intro u c x same hx
  subst same
  obtain ⟨_, hc, power⟩ := Interpretation.value_rhs hx hv
  cases hc
  have pos := (rooted rfl).base_pos canonical hx power positive
  obtain ⟨-, rfl⟩ := pow_reals_eq_some.1 power
  rw [pow_reals_eq_some, Real.sqrt_eq_rpow, ← Real.rpow_mul pos.le]
  exact ⟨.inl pos, by norm_num [num_reals]⟩

end Expr

end Fluxion
