import Mathlib.Algebra.Field.Rat
import Mathlib.Algebra.Ring.Units
import Mathlib.Data.Rat.Cast.Defs
import Mathlib.Tactic.Ring
import Fluxion.Expr.Weight
import Fluxion.Proofs.Sums

/-!
# Computing with a relation

A relation `V` ties trees to elements of a ring. `Computes num V` collects what the relation must
satisfy at the plain operations, so that the constructors compute with it: whichever of their rules
fire, they make a tree tied to the quotient, the multiple, the difference or the sum of what their
operands are tied to (`Computes.div`, `Computes.scale`, `Computes.sub`, `Computes.add`).

A plain operation only has to be tied where its constructor leaves it as it is.
-/

namespace Fluxion
set_option autoImplicit false

open Fluxion.Expr

/-- The plain operations compute with the relation, and what is tied to an operation comes from its
operands. -/
structure Computes {S : Type} [CommRing S] (num : ℚ →+* S) (V : Expr → S → Prop) : Prop where
  unique : ∀ {f j k}, V f j → V f k → j = k
  const : ∀ c, V (.const c) (num c)
  sum : ∀ {f g j k}, V f j → V g k → Expr.add f g = .binary .add f g → V (.binary .add f g) (j + k)
  difference : ∀ {f g j k}, V f j → V g k → Expr.sub f g = .binary .sub f g →
    V (.binary .sub f g) (j - k)
  multiple : ∀ {f c j}, V f j → Expr.scale c f = .binary .mul (.const c) f →
    V (.binary .mul (.const c) f) (num c * j)
  quotient : ∀ {f g j k q}, V f j → V g k → IsUnit k → q * k = j →
    Expr.div f g = .binary .div f g → V (.binary .div f g) q
  of_sum : ∀ {f g q}, V (.binary .add f g) q → ∃ j k, V f j ∧ V g k ∧ q = j + k
  of_difference : ∀ {f g q}, V (.binary .sub f g) q → ∃ j k, V f j ∧ V g k ∧ q = j - k
  of_multiple : ∀ {f c q}, V (.binary .mul (.const c) f) q → ∃ j, V f j ∧ q = num c * j
  of_quotient : ∀ {f g q}, V (.binary .div f g) q →
    ∃ j k, V f j ∧ V g k ∧ IsUnit k ∧ q * k = j
  /-- A power of a constant absorbs another factor of it. -/
  absorbed : ∀ {c r j}, V (.binary .pow (.const c) (.const r)) j →
    V (constPow c (1 + r)) (num c * j)

namespace Computes

variable {S : Type} [CommRing S] {num : ℚ →+* S} {V : Expr → S → Prop} {f g h : Expr} {j k q : S}

theorem zero (C : Computes num V) : V (.const 0) 0 := by
  simpa using C.const 0

/-- A quotient computes as long as the denominator is a unit. -/
theorem div (C : Computes num V) (hf : V f j) (hg : V g k) (unit : IsUnit k) (hq : q * k = j) :
    V (f.div g) q := by
  by_cases plain : f.div g = .binary .div f g
  · rw [plain]
    exact C.quotient hf hg unit hq plain
  · fun_cases Expr.div f g with
    | case1 | case6 => simp_all [Expr.div]
    | case2 =>
      obtain rfl := C.unique hf hg
      obtain rfl : q = 1 := unit.mul_right_cancel (by rw [hq, one_mul])
      simpa using C.const 1
    | case3 =>
      obtain rfl := C.unique hg (C.const 1)
      rw [map_one, mul_one] at hq
      rwa [hq]
    | case4 =>
      obtain rfl := C.unique hf C.zero
      obtain rfl : q = 0 := unit.mul_right_cancel (by rw [hq, zero_mul])
      exact C.zero
    | case5 c d _ hd =>
      obtain rfl := C.unique hf (C.const c)
      obtain rfl := C.unique hg (C.const d)
      have nonzero : d ≠ 0 := fun h => hd (congrArg Expr.const h)
      obtain rfl : q = num (c / d) :=
        unit.mul_right_cancel (by rw [hq, ← map_mul, div_mul_cancel₀ c nonzero])
      exact C.const _

/-- A multiple computes as a product with the number. -/
theorem scale (C : Computes num V) (c : ℚ) (hg : V g j) : V (scale c g) (num c * j) := by
  fun_induction Expr.scale c g generalizing j with
  | case1 c d =>
    obtain rfl := C.unique hg (C.const d)
    rw [← map_mul]
    exact C.const _
  | case2 | case5 | case9 | case13 =>
    rw [map_zero, zero_mul]
    exact C.zero
  | case3 | case6 | case10 | case14 => simpa using hg
  | case4 c d h _ _ ih =>
    obtain ⟨k, hk, rfl⟩ := C.of_multiple hg
    rw [← mul_assoc, ← map_mul]
    exact ih hk
  | case7 c a =>
    -- the constant cancels against an equal denominator
    obtain ⟨i, k, hi, hk, -, rfl⟩ := C.of_quotient hg
    obtain rfl := C.unique hk (C.const c)
    rwa [mul_comm]
  | case8 c a d _ _ _ ih =>
    obtain ⟨i, k, hi, hk, unit, same⟩ := C.of_quotient hg
    exact C.div (ih hi) hk unit (by rw [mul_assoc, same])
  | case11 d k => exact C.absorbed hg
  | case12 c d k h0 h1 other => exact C.multiple hg (by simp [Expr.scale, h0, h1, other])
  | case15 => exact C.multiple hg (by simp_all [Expr.scale])

theorem neg (C : Computes num V) (hf : V f j) : V f.neg (-j) := by
  have := C.scale (-1) hf
  rwa [map_neg, map_one, neg_one_mul] at this

theorem double (C : Computes num V) (hf : V f j) : V (Expr.scale 2 f) (j + j) := by
  have := C.scale 2 hf
  rwa [map_ofNat, two_mul] at this

/-- The coefficient and what is left compute to the factors of the value. -/
theorem coefficient (C : Computes num V) (hf : V f j) :
    ∃ i, V (coefficient f).2 i ∧ j = num (Expr.coefficient f).1 * i := by
  unfold Expr.coefficient
  split
  · exact C.of_multiple hf
  · exact ⟨j, hf, by rw [map_one, one_mul]⟩

/-- Two multiples of one tree are collected by any operation that distributes over it. -/
theorem collect (C : Computes num V) {op : Op} {merge : ℚ → ℚ → ℚ} (hf : V f j) (hg : V g k)
    (plain : Expr.collect op merge f g = .binary op f g → V (.binary op f g) q)
    (distributes : ∀ c d i, j = num c * i → k = num d * i → q = num (merge c d) * i) :
    V (collect op merge f g) q := by
  obtain ⟨i, hi, hj⟩ := C.coefficient hf
  obtain ⟨i', hi', hk⟩ := C.coefficient hg
  fun_cases Expr.collect op merge f g with
  | case1 same =>
    rw [← same] at hi'
    obtain rfl := C.unique hi hi'
    rw [distributes _ _ i hj hk]
    exact C.scale _ hi
  | case2 other => exact plain (if_neg other)

theorem of_subtracts (C : Computes num V) (rules : Subtracts f g h) (hf : V f j) (hg : V g k) :
    V h (j - k) := by
  -- A tree computes to one number only, so the operands that a rule matches share their number.
  induction rules generalizing j k with
  | zero f =>
    obtain rfl := C.unique hg C.zero
    rwa [sub_zero]
  | same f =>
    obtain rfl := C.unique hf hg
    rw [sub_self]
    exact C.zero
  | constants c d =>
    obtain rfl := C.unique hf (C.const c)
    obtain rfl := C.unique hg (C.const d)
    rw [← map_sub]
    exact C.const _
  | negated g =>
    obtain rfl := C.unique hf C.zero
    rw [zero_sub]
    exact C.neg hg
  | firstSummand l r =>
    obtain ⟨i, i', hl, hr, rfl⟩ := C.of_sum hf
    obtain rfl := C.unique hl hg
    rwa [add_sub_cancel_left]
  | secondSummand l r =>
    obtain ⟨i, i', hl, hr, rfl⟩ := C.of_sum hf
    obtain rfl := C.unique hr hg
    rwa [add_sub_cancel_right]
  | minuend l r =>
    obtain ⟨i, i', hl, hr, rfl⟩ := C.of_difference hf
    obtain rfl := C.unique hl hg
    rw [sub_sub_cancel_left]
    exact C.neg hr
  | subtrahend rest ih =>
    obtain ⟨i, i', hl, hr, rfl⟩ := C.of_difference hf
    obtain rfl := C.unique hr hg
    rw [sub_sub]
    exact ih hl (C.double hg)
  | collected plain =>
    refine C.collect hf hg (fun same => C.difference hf hg (plain.trans same)) ?_
    rintro c d i rfl rfl
    rw [map_sub, sub_mul]

theorem sub (C : Computes num V) (hf : V f j) (hg : V g k) : V (f.sub g) (j - k) :=
  C.of_subtracts (subtracts_sub f g) hf hg

/-- By the rules of addition, with the difference that a sum of a difference comes to. -/
theorem of_adds (C : Computes num V) (rules : Adds f g h) (hf : V f j) (hg : V g k) :
    V h (j + k) := by
  induction rules generalizing j k with
  | zeroLeft g =>
    obtain rfl := C.unique hf C.zero
    rwa [zero_add]
  | zeroRight f =>
    obtain rfl := C.unique hg C.zero
    rwa [add_zero]
  | constants c d =>
    obtain rfl := C.unique hf (C.const c)
    obtain rfl := C.unique hg (C.const d)
    rw [← map_add]
    exact C.const _
  | double f =>
    obtain rfl := C.unique hf hg
    exact C.double hf
  | firstSummand rest ih =>
    obtain ⟨i, i', hl, hr, rfl⟩ := C.of_sum hf
    obtain rfl := C.unique hl hg
    rw [add_right_comm]
    exact ih (C.double hg) hr
  | secondSummand rest ih =>
    obtain ⟨i, i', hl, hr, rfl⟩ := C.of_sum hf
    obtain rfl := C.unique hr hg
    rw [add_assoc, add_comm]
    exact ih (C.double hg) hl
  | minuend l r =>
    obtain ⟨i, i', hl, hr, rfl⟩ := C.of_difference hf
    obtain rfl := C.unique hl hg
    rw [sub_add_eq_add_sub]
    exact C.sub (C.double hg) hr
  | subtrahend l r =>
    obtain ⟨i, i', hl, hr, rfl⟩ := C.of_difference hf
    obtain rfl := C.unique hr hg
    rwa [sub_add_cancel]
  | collected plain =>
    refine C.collect hf hg (fun same => C.sum hf hg (plain.trans same)) ?_
    rintro c d i rfl rfl
    rw [map_add, add_mul]

theorem add (C : Computes num V) (hf : V f j) (hg : V g k) : V (f.add g) (j + k) :=
  C.of_adds (adds_add f g) hf hg

end Computes

end Fluxion
