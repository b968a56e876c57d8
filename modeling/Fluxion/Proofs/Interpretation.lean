import Mathlib.Algebra.Field.Rat
import Mathlib.Algebra.Ring.Units
import Mathlib.Data.Rat.Cast.Defs
import Mathlib.Tactic.Ring
import Fluxion.Expr.Eval

/-!
# Trees over a ring

An interpretation reads trees in a commutative ring, with quotients, powers and named functions
that may be undefined. `Interpretation.value` is the evaluator of the library at work in that
arithmetic: it is undefined as soon as the value of any subtree is. The reals are one such ring,
and the dual numbers, which carry a derivative along with every value, are another.

`Lawful` collects what quotients and powers must satisfy for the simplifications to be sound. A
power is only asked about at exponents that are constants, and most is asked of integer ones; from
the laws follow the usual rules for integer exponents, with the negative ones at units only
(`pow_mul_intCast`, `pow_num_mul`, `pow_num`).
-/

namespace Fluxion
set_option autoImplicit false

theorem itemAt?_map {α β : Type} (g : α → β) (items : List α) (i : Int) :
    itemAt? (items.map g) i = (itemAt? items i).map g := by
  simp only [itemAt?, List.length_map, List.getElem?_map, Option.map_bind]
  rfl

/-- A commutative ring in which trees are read. -/
structure Interpretation (R : Type) [CommRing R] where
  num : ℚ →+* R
  e : R
  pi : R
  div : R → R → Option R
  pow : R → R → Option R
  named : Kind → R → Option R

namespace Interpretation

variable {R : Type} [CommRing R]

/-- Two values joined by an operation. -/
def join (M : Interpretation R) : Op → R → R → Option R
  | .add, a, b => some (a + b)
  | .sub, a, b => some (a - b)
  | .mul, a, b => some (a * b)
  | .div, a, b => M.div a b
  | .pow, a, b => M.pow a b

/-- The arithmetic of values that may be undefined. -/
def arithmetic (M : Interpretation R) : Arithmetic (Option R) where
  const q := .ok (some (M.num q))
  e := some M.e
  pi := some M.pi
  binary op x y := x.bind fun a => y.bind (M.join op a)
  special k x := x.bind (M.named k)

/-- The value of a tree at a point, if it is defined. -/
def value (M : Interpretation R) (p : Axis → R) (f : Expr) : Option R :=
  match f.evalIn M.arithmetic (Axis.all.map fun a => some (p a)) with
  | .ok v => v
  | .error _ => none

section Value

variable (M : Interpretation R) (p : Axis → R)

theorem value_e : M.value p .e = some M.e := rfl

theorem value_const (c : ℚ) : M.value p (.const c) = some (M.num c) := rfl

theorem value_var (i : Int) : M.value p (.var i) = (Axis.ofPosition? i).map p := by
  simp only [value, Expr.evalIn, itemAt?_map, Axis.ofPosition?]
  cases itemAt? Axis.all i <;> rfl

theorem value_binary (op : Op) (l r : Expr) :
    M.value p (.binary op l r) =
      (M.value p l).bind fun a => (M.value p r).bind (M.join op a) := by
  simp only [value, Expr.evalIn]
  cases l.evalIn M.arithmetic (Axis.all.map fun a => some (p a)) with
  | error => rfl
  | ok x =>
    cases r.evalIn M.arithmetic (Axis.all.map fun a => some (p a)) with
    | error => cases x <;> rfl
    | ok y => rfl

/-- A composition that was not carried out has no value. -/
theorem value_comp (l r : Expr) : M.value p (.comp l r) = none := by
  simp only [value, Expr.evalIn]
  cases l.evalIn M.arithmetic (Axis.all.map fun a => some (p a)) with
  | error => rfl
  | ok x => cases r.evalIn M.arithmetic (Axis.all.map fun a => some (p a)) <;> rfl

theorem value_special (k : Kind) (a : Expr) :
    M.value p (.special k a) = (M.value p a).bind (M.named k) := by
  simp only [value, Expr.evalIn]
  cases a.evalIn M.arithmetic (Axis.all.map fun a => some (p a)) <;> rfl

end Value

variable {M : Interpretation R} {p : Axis → R}

/-- An operation has a value when both operands have one and these can be joined. -/
theorem value_binary_eq_some {op : Op} {l r : Expr} {v : R} :
    M.value p (.binary op l r) = some v ↔
      ∃ a b, M.value p l = some a ∧ M.value p r = some b ∧ M.join op a b = some v := by
  rw [value_binary]
  constructor
  · intro h
    obtain ⟨a, ha, h⟩ := Option.bind_eq_some_iff.1 h
    obtain ⟨b, hb, h⟩ := Option.bind_eq_some_iff.1 h
    exact ⟨a, b, ha, hb, h⟩
  · rintro ⟨a, b, ha, hb, h⟩
    rw [ha, hb]
    exact h

/-- A call has a value when its argument has one that the function takes. -/
theorem value_special_eq_some {k : Kind} {a : Expr} {v : R} :
    M.value p (.special k a) = some v ↔
      ∃ x, M.value p a = some x ∧ M.named k x = some v := by
  rw [value_special]
  exact Option.bind_eq_some_iff

theorem value_join (op : Op) {l r : Expr} {a b v : R} (hl : M.value p l = some a)
    (hr : M.value p r = some b) (h : M.join op a b = some v) :
    M.value p (.binary op l r) = some v :=
  value_binary_eq_some.2 ⟨a, b, hl, hr, h⟩

/-- The right operand, where the left one is known. -/
theorem value_rhs {op : Op} {l r : Expr} {a v : R} (hl : M.value p l = some a)
    (h : M.value p (.binary op l r) = some v) :
    ∃ b, M.value p r = some b ∧ M.join op a b = some v := by
  obtain ⟨x, b, hx, hr, h⟩ := value_binary_eq_some.1 h
  obtain rfl := Option.some.inj (hx.symm.trans hl)
  exact ⟨b, hr, h⟩

/-- The left operand, where the right one is known. -/
theorem value_lhs {op : Op} {l r : Expr} {b v : R} (hr : M.value p r = some b)
    (h : M.value p (.binary op l r) = some v) :
    ∃ a, M.value p l = some a ∧ M.join op a b = some v := by
  obtain ⟨a, y, hl, hy, h⟩ := value_binary_eq_some.1 h
  obtain rfl := Option.some.inj (hy.symm.trans hr)
  exact ⟨a, hl, h⟩

/-- What quotients and powers satisfy. -/
structure Lawful (M : Interpretation R) : Prop where
  div_iff : ∀ {a b q : R}, M.div a b = some q ↔ IsUnit b ∧ q * b = a
  pow_natCast : ∀ (u : R) (n : ℕ), M.pow u (M.num n) = some (u ^ n)
  pow_add : ∀ {u v w : R} {a b : ℚ}, M.pow u (M.num a) = some v → M.pow u (M.num b) = some w →
    M.pow u (M.num (a + b)) = some (v * w)
  pow_neg : ∀ {u a : R} {c : ℚ}, M.pow u (M.num c) = some a → IsUnit a →
    ∃ b, M.pow u (M.num (-c)) = some b ∧ a * b = 1
  isUnit_of_pow_neg : ∀ {u v : R} {n : ℕ}, n ≠ 0 → M.pow u (M.num (-n)) = some v → IsUnit u
  one_pow : ∀ {w v : R}, M.pow 1 w = some v → v = 1

namespace Lawful

variable {u v a x : R} {c n : ℚ}

theorem pow_zero (L : M.Lawful) (u : R) : M.pow u 0 = some 1 := by
  simpa using L.pow_natCast u 0

theorem pow_one (L : M.Lawful) (u : R) : M.pow u 1 = some u := by
  simpa using L.pow_natCast u 1

theorem pow_two (L : M.Lawful) (u : R) : M.pow u (M.num 2) = some (u * u) := by
  simpa [sq] using L.pow_natCast u 2

/-- A natural factor of the exponent is a repeated product. -/
theorem pow_mul_natCast (L : M.Lawful) (k : ℕ) (h : M.pow u (M.num c) = some a) :
    M.pow u (M.num (c * k)) = some (a ^ k) := by
  induction k with
  | zero => simpa using L.pow_zero u
  | succ k ih =>
    have := L.pow_add ih h
    rw [pow_succ]
    simpa [mul_add] using this

/-- A power to a negative integer is the inverse of the power to the positive one. -/
theorem pow_neg_natCast (L : M.Lawful) {k : ℕ} (hk : k ≠ 0) :
    M.pow u (M.num (-k)) = some v ↔ IsUnit u ∧ v * u ^ k = 1 := by
  constructor
  · intro h
    refine ⟨L.isUnit_of_pow_neg hk h, ?_⟩
    have sum := L.pow_add h (L.pow_natCast u k)
    rw [neg_add_cancel, map_zero, L.pow_zero u] at sum
    exact (Option.some.inj sum).symm
  · rintro ⟨hu, hv⟩
    obtain ⟨b, hb, inverse⟩ := L.pow_neg (L.pow_natCast u k) (hu.pow k)
    rw [hb]
    congr 1
    calc b = v * u ^ k * b := by rw [hv, one_mul]
      _ = v * (u ^ k * b) := by ring
      _ = v := by rw [inverse, mul_one]

/-- A power of a power, when the outer exponent is an integer. -/
theorem pow_mul_intCast (L : M.Lawful) (m : ℤ) (h : M.pow u (M.num c) = some a)
    (hv : M.pow a (M.num m) = some v) : M.pow u (M.num (c * m)) = some v := by
  obtain ⟨k, rfl | rfl⟩ := m.eq_nat_or_neg
  · have whole := L.pow_natCast a k
    rw [Int.cast_natCast] at hv ⊢
    rw [L.pow_mul_natCast k h, ← whole, hv]
  · by_cases hk : k = 0
    · subst hk
      simp only [Nat.cast_zero, neg_zero, Int.cast_zero, mul_zero, map_zero, L.pow_zero] at hv ⊢
      exact hv
    · rw [Int.cast_neg, Int.cast_natCast] at hv ⊢
      obtain ⟨ha, inverse⟩ := (L.pow_neg_natCast hk).1 hv
      obtain ⟨b, hb, other⟩ := L.pow_neg (L.pow_mul_natCast k h) (ha.pow k)
      rw [mul_neg, hb]
      congr 1
      calc b = v * a ^ k * b := by rw [inverse, one_mul]
        _ = v * (a ^ k * b) := by ring
        _ = v := by rw [other, mul_one]

/-- An integer power of a multiple by a constant. -/
theorem pow_num_mul (L : M.Lawful) (m : ℤ) (hc : c ≠ 0)
    (hv : M.pow (M.num c * x) (M.num m) = some v) :
    ∃ w, M.pow x (M.num m) = some w ∧ v = M.num (c ^ m) * w := by
  obtain ⟨k, rfl | rfl⟩ := m.eq_nat_or_neg
  · rw [Int.cast_natCast, L.pow_natCast] at hv
    cases hv
    exact ⟨x ^ k, by rw [Int.cast_natCast, L.pow_natCast], by rw [mul_pow, zpow_natCast, map_pow]⟩
  · by_cases hk : k = 0
    · subst hk
      simp only [Nat.cast_zero, neg_zero, Int.cast_zero, map_zero, L.pow_zero] at hv ⊢
      exact ⟨1, rfl, by simpa using hv.symm⟩
    · rw [Int.cast_neg, Int.cast_natCast] at hv ⊢
      obtain ⟨hu, inverse⟩ := (L.pow_neg_natCast hk).1 hv
      have hx : IsUnit x := isUnit_of_mul_isUnit_right hu
      obtain ⟨w, hw, other⟩ := L.pow_neg (L.pow_natCast x k) (hx.pow k)
      refine ⟨w, hw, ?_⟩
      have back : M.num (c ^ (-k : ℤ)) * M.num c ^ k = 1 := by
        rw [← map_pow, ← map_mul, zpow_neg, zpow_natCast, inv_mul_cancel₀ (pow_ne_zero k hc),
          map_one]
      calc v = v * (M.num c ^ k * x ^ k) * (M.num (c ^ (-k : ℤ)) * w) := ?_
        _ = M.num (c ^ (-k : ℤ)) * w := by rw [← mul_pow, inverse, one_mul]
      calc v = v * (M.num (c ^ (-k : ℤ)) * M.num c ^ k) * (x ^ k * w) := by
            rw [back, other, mul_one, mul_one]
        _ = v * (M.num c ^ k * x ^ k) * (M.num (c ^ (-k : ℤ)) * w) := by ring

/-- An integer power of a constant. -/
theorem pow_num (L : M.Lawful) (m : ℤ) (hc : c ≠ 0 ∨ 0 < m)
    (hv : M.pow (M.num c) (M.num m) = some v) : v = M.num (c ^ m) := by
  by_cases zero : c = 0
  · subst zero
    obtain ⟨k, rfl⟩ := Int.eq_ofNat_of_zero_le (hc.resolve_left fun h => h rfl).le
    rw [Int.cast_natCast, L.pow_natCast] at hv
    cases hv
    rw [zpow_natCast, map_pow]
  · rw [← mul_one (M.num c)] at hv
    obtain ⟨w, hw, rfl⟩ := L.pow_num_mul m zero hv
    rw [L.one_pow hw, mul_one]

end Lawful

end Interpretation

end Fluxion
