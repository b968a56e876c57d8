import Fluxion.Proofs.Canonical
import Fluxion.Proofs.Computing
import Fluxion.Proofs.Interpretation

/-!
# The constructors keep values

In every lawful interpretation the constructors compute with values: where two trees have values,
`add`, `sub`, `mul` and `div` of the trees have the sum, the difference, the product and the
quotient of the values (`Lawful.value_add` and so on). Sums, differences and quotients need nothing
more: they compute with values as with any relation of the right kind (`Lawful.computes`). A product
may merge powers of one base, and then the tree must be canonical: that a base is no power with a
constant exponent itself keeps an even power and a root of it from cancelling.
-/

namespace Fluxion
set_option autoImplicit false

/-- The power of a fraction by repeated squaring is the power. -/
theorem fractionPower_eq_zpow (q : ℚ) (k : ℤ) : fractionPower q k = q ^ k := by
  unfold fractionPower
  by_cases hk : k = 0
  · subst hk
    split
    · simp
    · rfl
  · split
    · rename_i h
      rcases h with rfl | rfl | rfl
      · simp [zero_zpow k hk]
      · simp
      · by_cases even : k % 2 = 0
        · rw [if_pos even, (Int.even_iff.2 even).neg_one_zpow]
          norm_num
        · rw [if_neg even, (Int.not_even_iff_odd.1 fun h => even (Int.even_iff.1 h)).neg_one_zpow]
    · rfl

/-- An integer power of a constant is folded, unless zero has a negative exponent. -/
theorem constPow_intCast {c : ℚ} (m : ℤ) (hc : c ≠ 0 ∨ 0 < m) :
    Expr.constPow c m = .const (c ^ m) := by
  unfold Expr.constPow
  split
  · rename_i h
    rw [Int.cast_eq_zero.1 h, zpow_zero]
  · split
    · rename_i h
      rcases h with h | h
      · rw [Int.cast_eq_one.1 h, zpow_one]
      · rw [h, one_zpow]
    · rw [if_pos ⟨Rat.den_intCast m, by exact_mod_cast hc⟩, Rat.num_intCast, fractionPower_eq_zpow]

theorem constPow_two (c : ℚ) : Expr.constPow c 2 = .const (c * c) := by
  have square := constPow_intCast (c := c) 2 (.inr (by decide))
  rwa [zpow_ofNat, pow_two] at square

namespace Interpretation.Lawful

open Fluxion.Expr

variable {R : Type} [CommRing R] {M : Interpretation R} {p : Axis → R}
variable {f g h : Expr} {a b v : R}

/-- Folding a power of constants keeps its value. -/
theorem value_constPow (L : M.Lawful) {c r : ℚ} (hv : M.pow (M.num c) (M.num r) = some v) :
    M.value p (constPow c r) = some v := by
  fun_cases Expr.constPow c r with
  | case1 h =>
    rw [h, map_zero, L.pow_zero] at hv
    rw [value_const, map_one, hv]
  | case2 h0 h =>
    rw [value_const]
    rcases h with rfl | rfl
    · rwa [map_one, L.pow_one] at hv
    · rw [map_one] at hv ⊢
      exact congrArg some (L.one_pow hv).symm
  | case3 h0 h1 h =>
    obtain ⟨integer, hc⟩ := h
    rw [← Rat.coe_int_num_of_den_eq_one integer] at hv
    have hc : c ≠ 0 ∨ 0 < r.num := hc.imp_right Rat.num_pos.2
    rw [value_const, fractionPower_eq_zpow, ← L.pow_num r.num hc hv]
  | case4 => exact value_join .pow (value_const ..) (value_const ..) hv

/-- The constructors compute with the values of trees. -/
theorem computes (L : M.Lawful) (p : Axis → R) :
    Computes M.num fun f a => M.value p f = some a where
  unique hf hg := Option.some.inj (hf.symm.trans hg)
  const c := value_const M p c
  sum hf hg _ := value_join .add hf hg rfl
  difference hf hg _ := value_join .sub hf hg rfl
  multiple hf _ := value_join .mul (value_const ..) hf rfl
  quotient hf hg unit hq _ := value_join .div hf hg (L.div_iff.2 ⟨unit, hq⟩)
  of_sum h := by
    obtain ⟨a, b, ha, hb, sum⟩ := value_binary_eq_some.1 h
    exact ⟨a, b, ha, hb, (Option.some.inj sum).symm⟩
  of_difference h := by
    obtain ⟨a, b, ha, hb, difference⟩ := value_binary_eq_some.1 h
    exact ⟨a, b, ha, hb, (Option.some.inj difference).symm⟩
  of_multiple h := by
    obtain ⟨a, ha, product⟩ := value_rhs (value_const ..) h
    exact ⟨a, ha, (Option.some.inj product).symm⟩
  of_quotient h := by
    obtain ⟨a, b, ha, hb, quotient⟩ := value_binary_eq_some.1 h
    exact ⟨a, b, ha, hb, L.div_iff.1 quotient⟩
  absorbed {c r v} h := by
    obtain ⟨_, hr, power⟩ := value_rhs (value_const ..) h
    cases hr
    have one : M.pow (M.num c) (M.num 1) = some (M.num c) := by rw [map_one, L.pow_one]
    exact L.value_constPow (L.pow_add one power)

/-- Folding a quotient keeps its value, as long as the operands have a quotient. -/
theorem value_div {q : R} (L : M.Lawful) (hf : M.value p f = some a) (hg : M.value p g = some b)
    (hq : M.div a b = some q) : M.value p (f.div g) = some q := by
  obtain ⟨unit, quotient⟩ := L.div_iff.1 hq
  exact (L.computes p).div hf hg unit quotient

/-- Moving a coefficient keeps the value. -/
theorem value_scale (L : M.Lawful) (c : ℚ) (hg : M.value p g = some b) :
    M.value p (scale c g) = some (M.num c * b) :=
  (L.computes p).scale c hg

theorem value_neg (L : M.Lawful) (hf : M.value p f = some a) : M.value p (neg f) = some (-a) :=
  (L.computes p).neg hf

theorem value_sub (L : M.Lawful) (hf : M.value p f = some a) (hg : M.value p g = some b) :
    M.value p (f.sub g) = some (a - b) :=
  (L.computes p).sub hf hg

theorem value_add (L : M.Lawful) (hf : M.value p f = some a) (hg : M.value p g = some b) :
    M.value p (f.add g) = some (a + b) :=
  (L.computes p).add hf hg

/-- A numerator that is taken back is the product with the denominator. -/
theorem value_of_over? (L : M.Lawful) {x : Expr} (h : over? g f = some x)
    (hf : M.value p f = some a) (hg : M.value p g = some b) : M.value p x = some (a * b) := by
  obtain rfl := over?_eq_some h
  obtain ⟨y, hy, quotient⟩ := value_lhs hg hf
  obtain ⟨-, quotient⟩ := L.div_iff.1 quotient
  rw [hy, quotient]

/-- `plain` is only asked for canonical trees. -/
theorem value_mulInto (L : M.Lawful) {plain : Expr → Expr} (hg : g.Canonical)
    (hp : ∀ {k c}, k.Canonical → M.value p k = some c → M.value p (plain k) = some (a * c))
    (ha : M.value p f = some a) (hb : M.value p g = some b) :
    M.value p (mulInto f plain g) = some (a * b) := by
  fun_induction Expr.mulInto f plain g generalizing b with
  | case1 c =>
    rw [value_const] at hb
    cases hb
    rw [L.value_scale c ha, mul_comm]
  | case2 | case6 | case10 => exact hp hg hb
  | case3 x =>
    obtain ⟨y, hy, quotient⟩ := value_lhs ha hb
    obtain ⟨-, quotient⟩ := L.div_iff.1 quotient
    rw [hy, ← quotient, mul_comm]
  | case4 _ _ _ _ _ h | case7 _ _ _ _ h | case9 _ _ _ _ _ h => exact L.value_of_over? h ha hb
  | case5 x y _ _ _ ih =>
    obtain ⟨c, d, hc, hd, quotient⟩ := value_binary_eq_some.1 hb
    obtain ⟨unit, quotient⟩ := L.div_iff.1 quotient
    refine L.value_div (ih hg.1 hc) hd (L.div_iff.2 ⟨unit, ?_⟩)
    rw [mul_assoc, quotient]
  | case8 d h _ _ ih =>
    obtain ⟨y, hy, product⟩ := value_rhs (value_const ..) hb
    cases product
    rw [L.value_scale d (ih hg.2.1 hy)]
    exact congrArg some (by ring)

/-- Folding a power keeps its value, if multiplying nested exponents does. -/
theorem value_powr (L : M.Lawful) {r : ℚ} (canonical : f.Canonical) (ha : M.value p f = some a)
    (hv : M.pow a (M.num r) = some v)
    (nested : ∀ {u c x}, f = binary .pow u (const c) → M.value p u = some x →
      M.pow x (M.num (c * r)) = some v) :
    M.value p (powr f r) = some v := by
  fun_induction Expr.powr f r generalizing a v with
  | case1 c r =>
    rw [value_const] at ha
    cases ha
    exact L.value_constPow hv
  | case2 | case5 | case10 =>
    rw [map_zero, L.pow_zero] at hv
    rw [value_const, map_one, hv]
  | case3 | case6 | case11 =>
    rw [map_one, L.pow_one] at hv
    rw [ha, hv]
  -- A canonical base is no power itself, so exponents are multiplied once at most.
  | case4 u c r _ _ ih =>
    obtain ⟨x, hx, power⟩ := value_lhs (value_const ..) ha
    refine ih canonical.1 hx (nested rfl hx) ?_
    intro _ _ _ same _
    exact (canonical.base_ne_power _ _ same).elim
  | case7 c u r _ _ integer q hq ih =>
    obtain ⟨y, hy, product⟩ := value_rhs (value_const ..) ha
    cases product
    have hc := canonical.coefficient_ne_zero
    rw [← Rat.coe_int_num_of_den_eq_one integer] at hv hq
    rw [constPow_intCast r.num (.inl hc)] at hq
    cases hq
    obtain ⟨w, hw, rfl⟩ := L.pow_num_mul r.num hc hv
    refine L.value_scale _ (ih canonical.2.1 hy ?_ fun same hx => ?_)
    · rwa [Rat.coe_int_num_of_den_eq_one integer] at hw
    · subst same
      obtain ⟨_, hc, power⟩ := value_rhs hx hy
      cases hc
      have := L.pow_mul_intCast r.num power hw
      rwa [Rat.coe_int_num_of_den_eq_one integer] at this
  -- An integer power of a nonzero constant is always a constant.
  | case8 c u r _ _ integer varying =>
    obtain ⟨q, h⟩ := constPow_eq_const canonical.coefficient_ne_zero integer
    exact (varying q h).elim
  | case9 | case12 => exact value_join .pow ha (value_const ..) hv

/-- Another power of the base of a canonical power. -/
theorem value_powr_base (L : M.Lawful) {c r : ℚ} (canonical : (binary .pow f (const c)).Canonical)
    (ha : M.value p f = some a) (hv : M.pow a (M.num r) = some v) :
    M.value p (powr f r) = some v := by
  refine L.value_powr canonical.1 ha hv ?_
  intro _ _ _ same _
  exact (canonical.base_ne_power _ _ same).elim

/-- Nested exponents never lose a sign in a square of a canonical tree. -/
theorem value_square (L : M.Lawful) (canonical : f.Canonical) (ha : M.value p f = some a) :
    M.value p (powr f 2) = some (a * a) := by
  refine L.value_powr canonical ha (L.pow_two a) ?_
  intro u c x same hx
  subst same
  obtain ⟨_, hc, power⟩ := value_rhs hx ha
  cases hc
  have square := L.pow_two a
  exact L.pow_mul_intCast 2 power (by exact_mod_cast square)

/-- Every tree is the power of its base to its exponent. -/
theorem value_base (L : M.Lawful) (ha : M.value p f = some a) {c : ℚ}
    (h : exponent f = const c) :
    ∃ u, M.value p (base f) = some u ∧ M.pow u (M.num c) = some a := by
  unfold base exponent at *
  split at h
  · subst h
    exact value_lhs (value_const ..) ha
  · cases h
    exact ⟨a, ha, by rw [map_one, L.pow_one]⟩

/-- Adding the exponents of one base keeps the value of the product. -/
theorem value_mergePowers (L : M.Lawful) (canonical : f.Canonical) (ha : M.value p f = some a)
    (hb : M.value p g = some b) : M.value p (mergePowers f g) = some (a * b) := by
  fun_cases Expr.mergePowers f g with
  | case1 same =>
    subst same
    obtain rfl := Option.some.inj (ha.symm.trans hb)
    exact L.value_square canonical ha
  | case2 _ same c d hd hc =>
    obtain ⟨u, hu, power⟩ := L.value_base ha hc
    obtain ⟨w, hw, other⟩ := L.value_base hb hd
    rw [same] at hu
    obtain rfl := Option.some.inj (hu.symm.trans hw)
    rw [← same] at hu
    refine L.value_powr (canonical_base canonical) hu (L.pow_add power other) ?_
    intro _ _ _ nested _
    exact (canonical.base_exponent_ne_power hc _ _ nested).elim
  | case3 | case4 => exact value_join .mul ha hb rfl

/-- Folding a product keeps its value, by recursion on the left factor. -/
theorem value_mul (L : M.Lawful) (hf : f.Canonical) (hg : g.Canonical)
    (ha : M.value p f = some a) (hb : M.value p g = some b) :
    M.value p (f.mul g) = some (a * b) := by
  fun_induction Expr.mul f g generalizing a b with
  | case1 c g =>
    rw [value_const] at ha
    cases ha
    exact L.value_scale c hb
  | case2 c h g ih =>
    refine L.value_mulInto hg ?_ ha hb
    intro k z hk hc
    split
    · rename_i same
      subst same
      obtain rfl := Option.some.inj (ha.symm.trans hc)
      exact L.value_square hf ha
    · obtain ⟨y, hy, product⟩ := value_rhs (value_const ..) ha
      cases product
      rw [L.value_scale c (ih _ hf.2.1 hk hy hc), mul_assoc]
  | case3 f g => exact L.value_mulInto hg (fun _ hc => L.value_mergePowers hf ha hc) ha hb

end Interpretation.Lawful

end Fluxion
