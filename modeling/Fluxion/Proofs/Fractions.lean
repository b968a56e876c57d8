import Mathlib.RingTheory.SimpleRing.DivisionRing
import Mathlib.Tactic.Linarith
import Fluxion.Proofs.Soundness

/-!
# Fractions

A tree is a fraction when it is put together from variables and constants by sums, differences,
products, quotients and powers with constant exponents. Fractions can be read in every commutative
ring that holds the rational numbers: a quotient needs a unit below, a power an integer exponent,
and a unit as its base where the exponent is negative. This interpretation is lawful, and it is the
least one: a fraction that has a value in it has the corresponding value in every lawful
interpretation (`value_map`). A homomorphism that reflects units also brings values back
(`exists_value_of_map`).
-/

namespace Fluxion
set_option autoImplicit false

/-- The element with the property, if there is one. -/
noncomputable def the {α : Type} (P : α → Prop) : Option α :=
  open Classical in if h : ∃ v, P v then some h.choose else none

/-- What is unique is found when it exists. -/
theorem the_eq_some {α : Type} {P : α → Prop} (unique : ∀ v w, P v → P w → v = w) {v : α} :
    the P = some v ↔ P v := by
  unfold the
  split
  · rename_i h
    rw [Option.some.injEq]
    constructor
    · rintro rfl
      exact h.choose_spec
    · exact unique _ _ h.choose_spec
  · rename_i h
    simpa using fun hv => h ⟨v, hv⟩

variable {R S : Type} [CommRing R] [CommRing S]

/-- `q` is the quotient of `a` and the unit `b`. -/
def IsQuotient (a b q : R) : Prop := IsUnit b ∧ q * b = a

/-- `v` is the power of `u` to the integer `w`, a difference of two numbers. -/
def IsPower (num : ℚ →+* R) (u w v : R) : Prop :=
  ∃ m n : ℕ, w = num (m - n) ∧ (n = 0 ∨ IsUnit u) ∧ v * u ^ n = u ^ m

/-- Fractions over a ring that holds the rational numbers. No fraction holds `e` or `pi`, which have
no value of their own here. -/
noncomputable def fractions (num : ℚ →+* R) : Interpretation R where
  num := num
  e := 0
  pi := 0
  div a b := the (IsQuotient a b)
  pow u w := the (IsPower num u w)
  named _ _ := none

section Laws

variable {num : ℚ →+* R} {a b q u v w : R}

/-- The denominator is a unit, so there is one quotient at most. -/
theorem IsQuotient.unique {q' : R} (h : IsQuotient a b q) (h' : IsQuotient a b q') : q = q' :=
  h.1.mul_right_cancel (h.2.trans h'.2.symm)

/-- A power with a denominator that the base can bear. -/
theorem exists_mul_pow_eq {n : ℕ} (bearing : n = 0 ∨ IsUnit u) (m : ℕ) :
    ∃ v, v * u ^ n = u ^ m := by
  rcases bearing with rfl | unit
  · exact ⟨u ^ m, by rw [pow_zero, mul_one]⟩
  · obtain ⟨i, hi⟩ := (unit.pow n).exists_left_inv
    exact ⟨u ^ m * i, by rw [mul_assoc, hi, mul_one]⟩

theorem IsPower.add {w' v' : R} (h : IsPower num u w v) (h' : IsPower num u w' v') :
    IsPower num u (w + w') (v * v') := by
  obtain ⟨m, n, rfl, bearing, power⟩ := h
  obtain ⟨m', n', rfl, bearing', power'⟩ := h'
  refine ⟨m + m', n + n', ?_, ?_, ?_⟩
  · rw [← map_add]
    push_cast
    congr 1
    ring
  · by_cases unit : IsUnit u
    · exact .inr unit
    · left
      rw [bearing.resolve_right unit, bearing'.resolve_right unit]
  · rw [pow_add, pow_add, ← power, ← power']
    ring

/-- The inverse of a power that has one. -/
theorem IsPower.neg (h : IsPower num u w v) (unit : IsUnit v) :
    ∃ i, IsPower num u (-w) i ∧ v * i = 1 := by
  obtain ⟨m, n, rfl, bearing, power⟩ := h
  obtain ⟨i, hi⟩ := unit.exists_right_inv
  refine ⟨i, ⟨n, m, ?_, ?_, ?_⟩, hi⟩
  · rw [← map_neg, neg_sub]
  · by_cases base : IsUnit u
    · exact .inr base
    · left
      by_contra nonzero
      obtain rfl := bearing.resolve_right base
      rw [pow_zero, mul_one] at power
      rw [power] at unit
      exact base ((isUnit_pow_iff nonzero).1 unit)
  · calc i * u ^ m = v * i * u ^ n := by rw [← power]; ring
      _ = u ^ n := by rw [hi, one_mul]

/-- Every lawful interpretation has these powers. -/
theorem IsPower.pow_eq_some {M : Interpretation R} (L : M.Lawful) (h : IsPower M.num u w v) :
    M.pow u w = some v := by
  obtain ⟨m, n, rfl, bearing, power⟩ := h
  rcases bearing with rfl | unit
  · rw [pow_zero, mul_one] at power
    rw [Nat.cast_zero, sub_zero, L.pow_natCast, power]
  · obtain ⟨i, hi, inverse⟩ := L.pow_neg (L.pow_natCast u n) (unit.pow n)
    have sum := L.pow_add (L.pow_natCast u m) hi
    rw [← sub_eq_add_neg] at sum
    rw [sum, ← power, mul_assoc, inverse, mul_one]

/-- A power is a power in every ring the numbers are mapped to. -/
theorem IsPower.map (φ : R →+* S) (h : IsPower num u w v) :
    IsPower (φ.comp num) (φ u) (φ w) (φ v) := by
  obtain ⟨m, n, rfl, bearing, power⟩ := h
  refine ⟨m, n, rfl, bearing.imp_right (IsUnit.map φ), ?_⟩
  rw [← map_pow, ← map_pow, ← map_mul, power]

theorem IsQuotient.map (φ : R →+* S) (h : IsQuotient a b q) : IsQuotient (φ a) (φ b) (φ q) :=
  ⟨h.1.map φ, by rw [← map_mul, h.2]⟩

theorem div_fractions_eq_some : (fractions num).div a b = some q ↔ IsQuotient a b q :=
  the_eq_some fun _ _ => IsQuotient.unique

variable [Nontrivial R]

/-- There is one power at most. -/
theorem IsPower.unique {v' : R} (h : IsPower num u w v) (h' : IsPower num u w v') : v = v' := by
  obtain ⟨m, n, rfl, bearing, power⟩ := h
  obtain ⟨m', n', same, bearing', power'⟩ := h'
  have exponents : m + n' = m' + n := by
    have := num.injective same
    have : (m : ℚ) + n' = m' + n := by linarith
    exact_mod_cast this
  have unit : IsUnit (u ^ (n + n')) := by
    by_cases base : IsUnit u
    · exact base.pow _
    · rw [bearing.resolve_right base, bearing'.resolve_right base, pow_zero]
      exact isUnit_one
  refine unit.mul_right_cancel ?_
  calc v * u ^ (n + n') = u ^ (m + n') := by rw [pow_add, pow_add, ← power]; ring
    _ = v' * u ^ (n + n') := by rw [exponents, pow_add, pow_add, ← power']; ring

theorem pow_fractions_eq_some : (fractions num).pow u w = some v ↔ IsPower num u w v :=
  the_eq_some fun _ _ => IsPower.unique

/-- The integer exponent of a power. -/
theorem isPower_num_iff {c : ℚ} :
    IsPower num u (num c) v ↔
      ∃ m n : ℕ, c = m - n ∧ (n = 0 ∨ IsUnit u) ∧ v * u ^ n = u ^ m := by
  unfold IsPower
  simp only [num.injective.eq_iff]

theorem lawful_fractions (num : ℚ →+* R) : (fractions num).Lawful where
  div_iff := div_fractions_eq_some
  pow_natCast u n := pow_fractions_eq_some.2 ⟨n, 0, by simp [fractions], .inl rfl, by simp⟩
  pow_add hv hw := by
    rw [pow_fractions_eq_some] at hv hw ⊢
    rw [map_add]
    exact hv.add hw
  pow_neg h unit := by
    rw [pow_fractions_eq_some] at h
    obtain ⟨i, power, inverse⟩ := h.neg unit
    exact ⟨i, pow_fractions_eq_some.2 (by rwa [map_neg]), inverse⟩
  isUnit_of_pow_neg {u v k} hk h := by
    obtain ⟨m, n, same, bearing, -⟩ := isPower_num_iff.1 (pow_fractions_eq_some.1 h)
    refine bearing.resolve_left ?_
    rintro rfl
    have sum : ((m + k : ℕ) : ℚ) = 0 := by
      push_cast at same ⊢
      linarith
    have : m + k = 0 := by exact_mod_cast sum
    omega
  one_pow h := by
    obtain ⟨m, n, -, -, power⟩ := pow_fractions_eq_some.1 h
    simpa using power

end Laws

namespace Expr

/-- The tree is put together from variables and constants by the five operations, and its exponents
are constants with the property `Q`. -/
def Fraction (Q : ℚ → Prop) : Expr → Prop
  | var _ | const _ => True
  | binary .pow u w => u.Fraction Q ∧ ∃ c, w = const c ∧ Q c
  | binary _ l r => l.Fraction Q ∧ r.Fraction Q
  | e | pi | comp _ _ | special _ _ => False

theorem Fraction.mono {Q Q' : ℚ → Prop} {f : Expr} (h : f.Fraction Q)
    (weaker : ∀ c, Q c → Q' c) : f.Fraction Q' := by
  induction f with
  | var | const => trivial
  | e | pi | comp | special => exact h.elim
  | binary op l r ihl ihr =>
    cases op with
    | pow =>
      obtain ⟨hl, c, rfl, hc⟩ := h
      exact ⟨ihl hl, c, rfl, weaker c hc⟩
    | _ => exact ⟨ihl h.1, ihr h.2⟩

theorem hereditary_fraction : Hereditary (Fraction fun _ => True) where
  const _ := trivial
  lhs {op l r} h := by cases op <;> exact h.1
  rhs {op l r} h := by
    cases op with
    | pow =>
      obtain ⟨-, c, rfl, -⟩ := h
      trivial
    | _ => exact h.2
  arg h := h.elim
  product hf hg := ⟨hf, hg⟩
  quotient h hl := ⟨hl, h.2⟩
  surd _ := ⟨trivial, _, rfl, trivial⟩
  sum hf hg := ⟨hf, hg⟩
  difference hf hg := ⟨hf, hg⟩
  constPower hf _ := ⟨hf, _, rfl, trivial⟩

end Expr

/-- The value of a fraction is carried along by every homomorphism. -/
theorem value_map [Nontrivial R] {num : ℚ →+* R} {N : Interpretation S} (L : N.Lawful)
    (φ : R →+* S) {p : Axis → R} {f : Expr} (fraction : f.Fraction fun _ => True) {v : R}
    (hv : (fractions num).value p f = some v) :
    N.value (fun a => φ (p a)) f = some (φ v) := by
  have same : φ.comp num = N.num := RingHom.ext_rat _ _
  induction f generalizing v with
  | var i =>
    rw [Interpretation.value_var] at hv ⊢
    obtain ⟨a, ha, rfl⟩ := Option.map_eq_some_iff.1 hv
    rw [ha]
    rfl
  | const c =>
    cases hv
    rw [Interpretation.value_const, ← same]
    rfl
  | e | pi | comp | special => exact fraction.elim
  | binary op l r ihl ihr =>
    have H := Expr.hereditary_fraction
    obtain ⟨a, b, ha, hb, joined⟩ := Interpretation.value_binary_eq_some.1 hv
    have hl := ihl (H.lhs fraction) ha
    have hr := ihr (H.rhs fraction) hb
    refine Interpretation.value_join op hl hr ?_
    cases op with
    | add | sub | mul =>
      cases joined
      simp [Interpretation.join]
    | div =>
      exact L.div_iff.2 ((div_fractions_eq_some.1 joined).map φ)
    | pow =>
      have power := (pow_fractions_eq_some.1 joined).map φ
      rw [same] at power
      exact power.pow_eq_some L

/-- A homomorphism that only takes units to units brings the value of a fraction back, if the powers
have exponents that the bases can bear. -/
theorem exists_value_of_map [Nontrivial R] (num : ℚ →+* R) {N : Interpretation S} (L : N.Lawful)
    (φ : R →+* S) (reflects : ∀ u, IsUnit (φ u) → IsUnit u) {Q : ℚ → Prop}
    (bears : ∀ {c u v}, Q c → N.pow u (N.num c) = some v →
      ∃ m n : ℕ, c = m - n ∧ (n = 0 ∨ IsUnit u))
    {p : Axis → R} {f : Expr} (fraction : f.Fraction Q) {v : S}
    (hv : N.value (fun a => φ (p a)) f = some v) : ∃ u, (fractions num).value p f = some u := by
  induction f generalizing v with
  | var i =>
    rw [Interpretation.value_var] at hv ⊢
    obtain ⟨a, ha, -⟩ := Option.map_eq_some_iff.1 hv
    rw [ha]
    exact ⟨_, rfl⟩
  | const c => exact ⟨_, Interpretation.value_const ..⟩
  | e | pi | comp | special => exact fraction.elim
  | binary op l r ihl ihr =>
    obtain ⟨x, y, hx, hy, joined⟩ := Interpretation.value_binary_eq_some.1 hv
    cases op with
    | add | sub | mul =>
      obtain ⟨a, ha⟩ := ihl fraction.1 hx
      obtain ⟨b, hb⟩ := ihr fraction.2 hy
      exact ⟨_, Interpretation.value_join _ ha hb rfl⟩
    | div =>
      obtain ⟨a, ha⟩ := ihl fraction.1 hx
      obtain ⟨b, hb⟩ := ihr fraction.2 hy
      -- The denominator is a unit after the homomorphism, so it was one before.
      have below := value_map L φ (fraction.2.mono fun _ _ => trivial) hb
      obtain rfl := Option.some.inj (hy.symm.trans below)
      have unit := reflects b (L.div_iff.1 joined).1
      obtain ⟨i, hi⟩ := unit.exists_left_inv
      refine ⟨a * i, Interpretation.value_join .div ha hb (div_fractions_eq_some.2 ⟨unit, ?_⟩)⟩
      rw [mul_assoc, hi, mul_one]
    | pow =>
      obtain ⟨base, c, rfl, hc⟩ := fraction
      obtain ⟨a, ha⟩ := ihl base hx
      have inside := value_map L φ (base.mono fun _ _ => trivial) ha
      obtain rfl := Option.some.inj (hx.symm.trans inside)
      cases hy
      obtain ⟨m, n, rfl, bearing⟩ := bears hc joined
      have bearing := bearing.imp_right (reflects a)
      obtain ⟨z, power⟩ := exists_mul_pow_eq bearing m
      exact ⟨z, Interpretation.value_join .pow ha rfl
        (pow_fractions_eq_some.2 ⟨m, n, rfl, bearing, power⟩)⟩

end Fluxion
