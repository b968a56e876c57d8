import Mathlib.Algebra.BigOperators.Group.List.Basic
import Fluxion.Proofs.Fractions

/-!
# Evaluation in exact numbers

The evaluator works in any arithmetic, and one of them is exact: constants stand for themselves,
quotients and integer powers of fractions are fractions again, and everything else is undefined. The
fractions of the theory have the same values there (`evalIn_of_value`).

Values at many points are told apart by whether they vary. Whatever the arithmetic is, this makes no
difference to the values: those of a tree at many points are the ones it has at each of them
(`sampler_map`).
-/

namespace Fluxion
set_option autoImplicit false

namespace Sample

variable {α : Type} (A : Arithmetic α)

/-- Evaluating a sample commutes with the operations, whether it is one number or one at each point.
-/
theorem valueAt_binary (op : Op) (s t : Sample α) (x : α) :
    (binary A (A.binary .pow) op s t).valueAt x = A.binary op (s.valueAt x) (t.valueAt x) := by
  cases op <;> cases s <;> cases t <;> rfl

theorem valueAt_special (k : Kind) (s : Sample α) (x : α) :
    (special A k s).valueAt x = A.special k (s.valueAt x) := by
  cases s <;> rfl

theorem valueAt_const (c : ℚ) (x : α) :
    ((arithmetic A (A.binary .pow)).const c).map (·.valueAt x) = A.const c := by
  simp only [arithmetic]
  cases A.const c <;> rfl

end Sample

section Sampling

variable {α : Type} (A : Arithmetic α)

/-- Evaluation at many points, looked at in one of them. -/
theorem evalIn_samples (point : List (Sample α)) (x : α) (f : Expr) :
    (f.evalIn (Sample.arithmetic A (A.binary .pow)) point).map (·.valueAt x) =
      f.evalIn A (point.map (·.valueAt x)) := by
  induction f with
  | var i =>
    simp only [Expr.evalIn, itemAt?_map]
    cases itemAt? point i <;> rfl
  | e | pi => rfl
  | const c => exact Sample.valueAt_const A c x
  | binary op l r ihl ihr =>
    simp only [Expr.evalIn, ← ihl, ← ihr]
    cases l.evalIn (Sample.arithmetic A (A.binary .pow)) point with
    | error => rfl
    | ok s =>
      cases r.evalIn (Sample.arithmetic A (A.binary .pow)) point with
      | error => rfl
      | ok t => exact congrArg Except.ok (Sample.valueAt_binary A op s t x)
  | comp l r ihl ihr =>
    simp only [Expr.evalIn, ← ihl, ← ihr]
    cases l.evalIn (Sample.arithmetic A (A.binary .pow)) point with
    | error => rfl
    | ok s => cases r.evalIn (Sample.arithmetic A (A.binary .pow)) point <;> rfl
  | special k a ih =>
    simp only [Expr.evalIn, ← ih]
    cases a.evalIn (Sample.arithmetic A (A.binary .pow)) point with
    | error => rfl
    | ok s => exact congrArg Except.ok (Sample.valueAt_special A k s x)

/-- The values of a tree at many points are the values at each of them. -/
theorem sampler_map (zero x : α) (f : Expr) :
    (f.sampler (Sample.arithmetic A (A.binary .pow)) zero).map (· x) =
      f.evalIn A [x, zero, zero] := by
  have values := evalIn_samples A [.varying id, .varying fun _ => zero, .varying fun _ => zero] x f
  refine Eq.trans ?_ values
  simp only [Expr.sampler]
  cases f.evalIn (Sample.arithmetic A (A.binary .pow))
    [.varying id, .varying fun _ => zero, .varying fun _ => zero] <;> rfl

end Sampling

/-- A fraction, or nothing where an operation has no fraction as its result. -/
inductive ExactNumber where
  | fraction (q : ℚ)
  | undefined
  deriving DecidableEq, Repr

namespace ExactNumber

/-- The operations on fractions. No quotient has a zero below. Exponents are integers, and none is
negative where the base is zero. -/
def join : Op → ℚ → ℚ → ExactNumber
  | .add, a, b => fraction (a + b)
  | .sub, a, b => fraction (a - b)
  | .mul, a, b => fraction (a * b)
  | .div, a, b => if b = 0 then undefined else fraction (a / b)
  | .pow, a, b => if b.den = 1 ∧ (a = 0 → 0 ≤ b) then fraction (a ^ b.num) else undefined

/-- Exact numbers joined by an operation. -/
def binary (op : Op) : ExactNumber → ExactNumber → ExactNumber
  | fraction a, fraction b => join op a b
  | _, _ => undefined

/-- The arithmetic of exact numbers. Neither `e` nor `pi` nor any named function has a fraction as
its value. -/
def arithmetic : Arithmetic ExactNumber where
  const q := .ok (fraction q)
  e := undefined
  pi := undefined
  binary := binary
  special _ _ := undefined

/-- The arithmetic of exact numbers at many points. -/
def samples : Arithmetic (Sample ExactNumber) :=
  Sample.arithmetic arithmetic (arithmetic.binary .pow)

instance exactAdd : Add ExactNumber := ⟨binary .add⟩

instance exactSub : Sub ExactNumber := ⟨binary .sub⟩

instance exactMul : Mul ExactNumber := ⟨binary .mul⟩

instance exactZero : Zero ExactNumber := ⟨fraction 0⟩

instance exactNatCast : NatCast ExactNumber := ⟨fun n => fraction n⟩

/-- The opposite of an exact number. -/
def neg : ExactNumber → ExactNumber
  | fraction a => fraction (-a)
  | undefined => undefined

theorem add_fraction (a b : ℚ) : fraction a + fraction b = fraction (a + b) := rfl

theorem mul_fraction (a b : ℚ) : fraction a * fraction b = fraction (a * b) := rfl

theorem neg_mul_eq (x y : ExactNumber) : neg x * y = neg (x * y) := by
  cases x with
  | undefined => rfl
  | fraction a =>
    cases y with
    | undefined => rfl
    | fraction b => exact congrArg fraction (neg_mul a b)

instance exactAddCommMonoid : AddCommMonoid ExactNumber where
  add_assoc
    | fraction a, fraction b, fraction c => congrArg fraction (add_assoc a b c)
    | undefined, _, _ => rfl
    | fraction _, undefined, _ => rfl
    | fraction _, fraction _, undefined => rfl
  zero_add
    | fraction a => congrArg fraction (zero_add a)
    | undefined => rfl
  add_zero
    | fraction a => congrArg fraction (add_zero a)
    | undefined => rfl
  add_comm
    | fraction a, fraction b => congrArg fraction (add_comm a b)
    | undefined, undefined => rfl
    | fraction _, undefined => rfl
    | undefined, fraction _ => rfl
  nsmul := nsmulRec

theorem sum_map_fraction (l : List ℚ) : (l.map fraction).sum = fraction l.sum := by
  induction l with
  | nil => rfl
  | cons a l ih => rw [List.map_cons, List.sum_cons, ih, List.sum_cons, add_fraction]

/-- A quotient of fractions that exists is exact. -/
theorem join_div_eq {a b q : ℚ} (h : IsQuotient a b q) : join .div a b = fraction q := by
  have below : b ≠ 0 := h.1.ne_zero
  rw [join, if_neg below, eq_div_of_mul_eq below h.2]

/-- A power of fractions that exists is exact. -/
theorem join_pow_eq {a b q : ℚ} (h : IsPower (RingHom.id ℚ) a b q) :
    join .pow a b = fraction q := by
  obtain ⟨m, n, rfl, bearing, power⟩ := h
  obtain ⟨k, exponent⟩ : ∃ k : ℤ, k = m - n := ⟨_, rfl⟩
  have integer : (RingHom.id ℚ) ((m : ℚ) - n) = k := by simp [exponent]
  have allowed : a = 0 → (0 : ℚ) ≤ k := by
    intro zero
    obtain rfl := bearing.resolve_right (by simp [zero])
    simp [exponent]
  rw [join, integer, if_pos ⟨Rat.den_intCast k, allowed⟩, Rat.num_intCast, exponent]
  congr 1
  rcases bearing with rfl | unit
  · simpa using power.symm
  · rw [zpow_sub₀ unit.ne_zero, zpow_natCast, zpow_natCast]
    exact (eq_div_of_mul_eq (pow_ne_zero n unit.ne_zero) power).symm

/-- A fraction with a value among the rational numbers has that value in exact arithmetic. -/
theorem evalIn_of_value {p : Axis → ℚ} {f : Expr} (isFraction : f.Fraction fun _ => True) {v : ℚ}
    (hv : (fractions (RingHom.id ℚ)).value p f = some v) :
    f.evalIn arithmetic (Axis.all.map fun a => fraction (p a)) = .ok (fraction v) := by
  induction f generalizing v with
  | var i =>
    rw [Interpretation.value_var] at hv
    obtain ⟨a, ha, rfl⟩ := Option.map_eq_some_iff.1 hv
    simp only [Expr.evalIn, itemAt?_map]
    rw [Axis.ofPosition?] at ha
    rw [ha]
    rfl
  | const c =>
    cases hv
    rfl
  | e | pi | comp | special => exact isFraction.elim
  | binary op l r ihl ihr =>
    have H := Expr.hereditary_fraction
    obtain ⟨a, b, ha, hb, joined⟩ := Interpretation.value_binary_eq_some.1 hv
    have hl := ihl (H.lhs isFraction) ha
    have hr := ihr (H.rhs isFraction) hb
    have same : join op a b = fraction v := by
      cases op with
      | add | sub | mul =>
        cases joined
        rfl
      | div => exact join_div_eq (div_fractions_eq_some.1 joined)
      | pow => exact join_pow_eq (pow_fractions_eq_some.1 joined)
    simp only [Expr.evalIn, hl, hr]
    exact congrArg Except.ok same

end ExactNumber

end Fluxion
