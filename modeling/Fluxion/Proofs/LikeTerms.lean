import Mathlib.Algebra.Ring.Rat
import Fluxion.Proofs.Canonical

/-!
# Like terms

A *term* is a tree that a constant can only be put before: it is neither a constant nor a multiple,
whose constants would merge with it, nor a quotient, which takes it into the numerator, nor a power
of constants, which may take it into the exponent. The sum and the difference of two multiples of a
term are multiples of the term again, whatever the coefficients are (`add_sub_multiples`).

A term may be a sum or a difference itself, and then the rules that cancel one of its operands
against the other term are tried before the rule for coefficients. They never fire, as no multiple
of a term is as small as an operand of it (`IsTerm.multiple_ne_operand`). Equal multiples are
doubled before their coefficients are looked at, which comes to the same (`IsTerm.scale_scale`).
-/

namespace Fluxion.Expr
set_option autoImplicit false

/-- The tree has no constant factor, and takes none in. -/
structure IsTerm (t : Expr) : Prop where
  ne_const (c : Rat) : t ≠ const c
  ne_quotient (l r : Expr) : t ≠ binary .div l r
  ne_multiple (c : Rat) (r : Expr) : t ≠ binary .mul (const c) r
  ne_surd (c k : Rat) : t ≠ binary .pow (const c) (const k)

namespace IsTerm

variable {t l r : Expr} {a b c : Rat}

/-- A multiple of a term is the constant zero, the term, or the plain product. -/
theorem scale_eq (term : t.IsTerm) (c : Rat) :
    scale c t = if c = 0 then const 0 else if c = 1 then t else binary .mul (const c) t := by
  unfold scale
  split
  · exact absurd rfl (term.ne_const _)
  · exact absurd rfl (term.ne_multiple _ _)
  · exact absurd rfl (term.ne_quotient _ _)
  · exact absurd rfl (term.ne_surd _ _)
  · rfl

/-- A term has the coefficient one. -/
theorem coefficient_eq (term : t.IsTerm) : coefficient t = (1, t) := by
  unfold coefficient
  split
  · exact absurd rfl (term.ne_multiple _ _)
  · rfl

/-- The coefficient of a multiple can be read off it. -/
theorem coefficient_scale (term : t.IsTerm) (nonzero : c ≠ 0) :
    coefficient (scale c t) = (c, t) := by
  rw [term.scale_eq, if_neg nonzero]
  split
  · rename_i one
    rw [one, term.coefficient_eq]
  · rfl

/-- Multiples of a term are equal only if their coefficients are. -/
theorem scale_injective (term : t.IsTerm) (ha : a ≠ 0) (hb : b ≠ 0)
    (same : scale a t = scale b t) : a = b := by
  have pairs := congrArg coefficient same
  rw [term.coefficient_scale ha, term.coefficient_scale hb] at pairs
  exact congrArg Prod.fst pairs

theorem scale_ne_const (term : t.IsTerm) (nonzero : c ≠ 0) (q : Rat) : scale c t ≠ const q := by
  intro same
  have pairs := congrArg coefficient same
  rw [term.coefficient_scale nonzero] at pairs
  exact term.ne_const q (congrArg Prod.snd pairs)

/-- Factors one after the other are one factor. -/
theorem scale_scale (term : t.IsTerm) (a b : Rat) : scale a (scale b t) = scale (a * b) t := by
  by_cases zero : b = 0
  · rw [zero, mul_zero, scale_zero, scale, mul_zero]
  by_cases one : b = 1
  · rw [one, mul_one, scale_one]
  -- the constant is in front now, and the next one merges with it
  have front : scale b t = binary .mul (const b) t := by
    rw [term.scale_eq, if_neg zero, if_neg one]
  rw [front, scale]
  split
  · rename_i none
    rw [none, zero_mul, scale_zero]
  split
  · rename_i same
    rw [same, one_mul, front]
  · rfl

/-- A multiple of a term is no smaller than the term. -/
theorem size_le_size_scale (term : t.IsTerm) (nonzero : c ≠ 0) : t.size ≤ (scale c t).size := by
  rw [term.scale_eq, if_neg nonzero]
  split
  · exact Nat.le_refl _
  · simp only [size]
    omega

/-- A multiple of a term that is no product on top is the term itself. -/
theorem eq_of_scale_eq (term : t.IsTerm) (nonzero : c ≠ 0) {op : Op} (notProduct : op ≠ .mul)
    (node : scale c t = binary op l r) : t = binary op l r := by
  have plain : coefficient (binary op l r) = (1, binary op l r) := by
    unfold coefficient
    split
    · rename_i same
      cases same
      contradiction
    · rfl
  have pairs := congrArg coefficient node
  rw [term.coefficient_scale nonzero, plain] at pairs
  exact congrArg Prod.snd pairs

/-- No multiple of a term is an operand of the term, nor of another multiple of it. -/
theorem multiple_ne_operand (term : t.IsTerm) (ha : a ≠ 0) (hb : b ≠ 0) {op : Op}
    (notProduct : op ≠ .mul) (node : scale a t = binary op l r) :
    scale b t ≠ l ∧ scale b t ≠ r := by
  have large := term.size_le_size_scale hb
  rw [congrArg size (term.eq_of_scale_eq ha notProduct node)] at large
  simp only [size] at large
  constructor
  · rintro rfl
    omega
  · rintro rfl
    omega

/-- The sum of multiples is the multiple of the sum. -/
theorem add_scale (term : t.IsTerm) (a b : Rat) :
    add (scale a t) (scale b t) = scale (a + b) t := by
  by_cases ha : a = 0
  · rw [ha, scale_zero, add_zero_left, zero_add]
  by_cases hb : b = 0
  · rw [hb, scale_zero, add_zero_right, add_zero]
  have rules := adds_add (scale a t) (scale b t)
  generalize add (scale a t) (scale b t) = h at rules ⊢
  generalize hf : scale a t = f, hg : scale b t = g at rules
  cases rules with
  | zeroLeft | constants => exact absurd hf (term.scale_ne_const ha _)
  | zeroRight => exact absurd hg (term.scale_ne_const hb _)
  | double =>
    obtain rfl := term.scale_injective ha hb (hf.trans hg.symm)
    rw [← hf, term.scale_scale, two_mul]
  | firstSummand | minuend =>
    exact absurd hg (term.multiple_ne_operand ha hb (by decide) hf).1
  | secondSummand | subtrahend =>
    exact absurd hg (term.multiple_ne_operand ha hb (by decide) hf).2
  | collected =>
    rw [collect, ← hf, ← hg, term.coefficient_scale ha, term.coefficient_scale hb, if_pos rfl]

theorem sub_scale (term : t.IsTerm) (a b : Rat) :
    sub (scale a t) (scale b t) = scale (a - b) t := by
  by_cases ha : a = 0
  · rw [ha, scale_zero, sub_zero_left, neg, term.scale_scale, neg_one_mul, zero_sub]
  by_cases hb : b = 0
  · rw [hb, scale_zero, sub_zero_right, sub_zero]
  have rules := subtracts_sub (scale a t) (scale b t)
  generalize sub (scale a t) (scale b t) = h at rules ⊢
  generalize hf : scale a t = f, hg : scale b t = g at rules
  cases rules with
  | zero => exact absurd hg (term.scale_ne_const hb _)
  | same =>
    obtain rfl := term.scale_injective ha hb (hf.trans hg.symm)
    rw [sub_self, scale_zero]
  | constants | negated => exact absurd hf (term.scale_ne_const ha _)
  | firstSummand | minuend =>
    exact absurd hg (term.multiple_ne_operand ha hb (by decide) hf).1
  | secondSummand | subtrahend =>
    exact absurd hg (term.multiple_ne_operand ha hb (by decide) hf).2
  | collected =>
    rw [collect, ← hf, ← hg, term.coefficient_scale ha, term.coefficient_scale hb, if_pos rfl]

end IsTerm

/-- The sum and the difference of two multiples of a term, canonical or not, are the multiples of the
term by the sum and the difference of the coefficients. -/
theorem add_sub_multiples {t : Expr} (term : t.IsTerm) (a b : Rat) :
    add (mul (const a) t) (mul (const b) t) = mul (const (a + b)) t ∧
      sub (mul (const a) t) (mul (const b) t) = mul (const (a - b)) t := by
  rw [mul, mul, mul, mul]
  exact ⟨term.add_scale a b, term.sub_scale a b⟩

/-- Multiples of `x+y`, whose operands could be cancelled. -/
theorem add_sub_multiples_sum :
    let t := binary .add (var 0) (var 1)
    t.IsTerm ∧ add (mul (const 3) t) (mul (const (-2)) t) = t ∧
      sub (mul (const 3) t) (mul (const (-2)) t) = binary .mul (const 5) t := by
  intro t
  have term : t.IsTerm := by
    constructor <;> simp [t]
  obtain ⟨sum, difference⟩ := add_sub_multiples term 3 (-2)
  have one : (3 + -2 : Rat) = 1 := by grind
  have five : (3 - -2 : Rat) = 5 := by grind
  refine ⟨term, ?_, ?_⟩
  · rw [sum, one, mul, scale_one]
  · rw [difference, five, mul, term.scale_eq, if_neg (by decide), if_neg (by decide)]

/-- A power of constants takes a factor in: `2*2^(1/2)` is `2^(3/2)`, and not a multiple anymore. -/
example :
    let root := binary .pow (const 2) (const (1 / 2))
    add (mul (const 2) root) root =
      binary .add (binary .pow (const 2) (const (3 / 2))) root := by
  cbv

end Fluxion.Expr
