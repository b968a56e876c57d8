import Mathlib.Analysis.SpecialFunctions.Pow.Real
import Fluxion.Proofs.Soundness

/-!
# Exact real values

The real interpretation reads constants, sums and products as they are. A quotient is undefined at
a zero denominator. A power `u ^ w` is defined for a positive base, for the base zero and a
nonnegative exponent, and for a negative base and an integer exponent. The named functions are any
partial functions of the reals. The interpretation is lawful, so `add`, `sub`, `mul`, `neg` and
`div` of canonical trees have the values that they should at every point (`value_arithmetic`).
-/

namespace Fluxion
set_option autoImplicit false

/-- Where a real power is defined. -/
def PowDefined (u w : ℝ) : Prop :=
  0 < u ∨ u = 0 ∧ 0 ≤ w ∨ u < 0 ∧ ∃ n : ℤ, w = n

open Classical in
/-- Trees over the reals, with the given partial functions for the named ones. -/
noncomputable def reals (named : Kind → ℝ → Option ℝ) : Interpretation ℝ where
  num := Rat.castHom ℝ
  e := Real.exp 1
  pi := Real.pi
  div a b := if b = 0 then none else some (a / b)
  pow u w := if PowDefined u w then some (u ^ w) else none
  named := named

section Laws

variable {named : Kind → ℝ → Option ℝ} {u v w : ℝ}

theorem num_reals (c : ℚ) : (reals named).num c = c := rfl

theorem div_reals_eq_some {a b q : ℝ} :
    (reals named).div a b = some q ↔ b ≠ 0 ∧ a / b = q := by
  unfold reals
  simp only
  split <;> simp [*]

theorem pow_reals_eq_some : (reals named).pow u w = some v ↔ PowDefined u w ∧ u ^ w = v := by
  unfold reals
  simp only
  split <;> simp [*]

/-- Integer powers are defined except for the poles of zero. -/
theorem powDefined_intCast {n : ℤ} (h : u ≠ 0 ∨ 0 ≤ n) : PowDefined u n := by
  rcases lt_trichotomy u 0 with neg | zero | pos
  · exact .inr (.inr ⟨neg, n, rfl⟩)
  · exact .inr (.inl ⟨zero, by exact_mod_cast h.resolve_left fun h => h zero⟩)
  · exact .inl pos

/-- Powers of one base multiply. -/
theorem rpow_add_of_powDefined {a b : ℝ} (ha : PowDefined u a) (hb : PowDefined u b) :
    PowDefined u (a + b) ∧ u ^ (a + b) = u ^ a * u ^ b := by
  rcases ha with pos | ⟨zero, ha⟩ | ⟨neg, m, rfl⟩
  · exact ⟨.inl pos, Real.rpow_add pos a b⟩
  · rcases hb with pos | ⟨-, hb⟩ | ⟨neg, -⟩
    · exact absurd zero pos.ne'
    · exact ⟨.inr (.inl ⟨zero, add_nonneg ha hb⟩), Real.rpow_add_of_nonneg zero.ge ha hb⟩
    · exact absurd zero neg.ne
  · rcases hb with pos | ⟨zero, -⟩ | ⟨-, n, rfl⟩
    · exact absurd pos neg.not_gt
    · exact absurd zero neg.ne
    · refine ⟨.inr (.inr ⟨neg, m + n, by push_cast; rfl⟩), ?_⟩
      rw [← Int.cast_add, Real.rpow_intCast, Real.rpow_intCast, Real.rpow_intCast,
        zpow_add₀ neg.ne]

/-- The inverse of a power. -/
theorem rpow_neg_of_powDefined (h : PowDefined u w) (unit : u ^ w ≠ 0) :
    PowDefined u (-w) ∧ u ^ w * u ^ (-w) = 1 := by
  rcases h with pos | ⟨rfl, -⟩ | ⟨neg, n, rfl⟩
  · refine ⟨.inl pos, ?_⟩
    rw [Real.rpow_neg pos.le, mul_inv_cancel₀ unit]
  · -- zero has only one power with an inverse
    have zero : w = 0 := by
      by_contra nonzero
      exact unit (Real.zero_rpow nonzero)
    subst zero
    refine ⟨.inr (.inl ⟨rfl, by simp⟩), ?_⟩
    simp
  · refine ⟨.inr (.inr ⟨neg, -n, by push_cast; rfl⟩), ?_⟩
    rw [← Int.cast_neg, Real.rpow_intCast, Real.rpow_intCast, zpow_neg,
      mul_inv_cancel₀ (zpow_ne_zero n neg.ne)]

/-- The real numbers satisfy the laws that folding relies on. -/
theorem lawful_reals (named : Kind → ℝ → Option ℝ) : (reals named).Lawful where
  div_iff {a b q} := by
    rw [div_reals_eq_some, isUnit_iff_ne_zero]
    exact and_congr_right fun hb => div_eq_iff hb |>.trans eq_comm
  pow_natCast u n := by
    rw [pow_reals_eq_some, num_reals, Rat.cast_natCast, Real.rpow_natCast]
    exact ⟨by exact_mod_cast powDefined_intCast (.inr (Int.natCast_nonneg n)), rfl⟩
  pow_add {u v w a b} hv hw := by
    rw [pow_reals_eq_some, num_reals] at hv hw ⊢
    obtain ⟨ha, rfl⟩ := hv
    obtain ⟨hb, rfl⟩ := hw
    rw [Rat.cast_add]
    exact rpow_add_of_powDefined ha hb
  pow_neg {u a c} h unit := by
    rw [pow_reals_eq_some, num_reals] at h
    obtain ⟨hc, rfl⟩ := h
    obtain ⟨defined, inverse⟩ := rpow_neg_of_powDefined hc unit.ne_zero
    refine ⟨u ^ (-(c : ℝ)), ?_, inverse⟩
    rw [pow_reals_eq_some, num_reals, Rat.cast_neg]
    exact ⟨defined, rfl⟩
  isUnit_of_pow_neg {u v n} hn h := by
    rw [pow_reals_eq_some, num_reals, Rat.cast_neg, Rat.cast_natCast] at h
    have positive : (0 : ℝ) < n := by exact_mod_cast Nat.pos_of_ne_zero hn
    rw [isUnit_iff_ne_zero]
    rcases h.1 with pos | ⟨-, nonneg⟩ | ⟨neg, -⟩
    · exact pos.ne'
    · linarith
    · exact neg.ne
  one_pow {w v} h := by
    rw [pow_reals_eq_some, Real.one_rpow] at h
    exact h.2.symm

end Laws

/-- Where canonical trees have values, so have their sum, difference, product and quotient, and
the values are those of the reals. -/
theorem value_arithmetic (named : Kind → ℝ → Option ℝ) {f g : Expr} (hf : f.Canonical)
    (hg : g.Canonical) (p : Axis → ℝ) {a b : ℝ} (ha : (reals named).value p f = some a)
    (hb : (reals named).value p g = some b) :
    (reals named).value p (f.add g) = some (a + b) ∧
      (reals named).value p (f.sub g) = some (a - b) ∧
      (reals named).value p (f.mul g) = some (a * b) ∧
      (reals named).value p f.neg = some (-a) ∧
      (b ≠ 0 → (reals named).value p (f.div g) = some (a / b)) := by
  have L := lawful_reals named
  refine ⟨L.value_add ha hb, L.value_sub ha hb, L.value_mul hf hg ha hb, L.value_neg ha, ?_⟩
  intro nonzero
  exact L.value_div ha hb (div_reals_eq_some.2 ⟨nonzero, rfl⟩)

/-- The arithmetic of `x ^ (1/2)` and `x ^ (3/2)` at `x = 4`. -/
theorem value_arithmetic_roots :
    let M := reals fun _ _ => none
    let p : Axis → ℝ := fun _ => 4
    let f := Expr.binary .pow (.var 0) (.const (1 / 2))
    let g := Expr.binary .pow (.var 0) (.const (3 / 2))
    M.value p (f.add g) = some (2 + 8) ∧ M.value p (f.sub g) = some (2 - 8) ∧
      M.value p (f.mul g) = some (2 * 8) ∧ M.value p f.neg = some (-2) ∧
      M.value p (f.div g) = some (2 / 8) := by
  intro M p f g
  have four : (2 : ℝ) ^ (2 : ℝ) = 4 := by norm_num
  have power (c : ℚ) :
      M.value p (.binary .pow (.var 0) (.const c)) = some (2 ^ (2 * (c : ℝ))) := by
    have defined : PowDefined (p .x) c := .inl (by norm_num [p])
    refine Interpretation.value_join .pow rfl rfl (pow_reals_eq_some.2 ⟨defined, ?_⟩)
    rw [Real.rpow_mul two_pos.le, four]
    rfl
  have ha : M.value p f = some 2 := by
    rw [power]
    norm_num
  have hb : M.value p g = some 8 := by
    rw [power]
    norm_num
  have hf : f.Canonical := ⟨trivial, trivial, by norm_num [Op.apply, Expr.power, Expr.powr]⟩
  have hg : g.Canonical := ⟨trivial, trivial, by norm_num [Op.apply, Expr.power, Expr.powr]⟩
  obtain ⟨sum, difference, product, opposite, quotient⟩ :=
    value_arithmetic (fun _ _ => none) hf hg p ha hb
  exact ⟨sum, difference, product, opposite, quotient (by norm_num)⟩

end Fluxion
