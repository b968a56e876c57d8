import Fluxion.Parse
import Fluxion.Proofs.Hereditary

/-!
# Canonical trees

A tree is *canonical* when each operation in it is what the constructor of that operation makes of
the two operands, so that the constructors find nothing left to simplify. The constructors make
canonical trees of canonical ones (`canonical_apply`): whenever one of them ends with a plain
operation, it would do so again. `rebuild` applies the constructors again from the leaves upward
and gives a canonical tree back (`Canonical.rebuild_eq`).
-/

namespace Fluxion.Expr
set_option autoImplicit false

/-- Every operation is what its constructor makes of the operands, and every call is resolved. -/
def Canonical : Expr → Prop
  | var _ | e | pi | const _ => True
  | binary op l r => l.Canonical ∧ r.Canonical ∧ op.apply l r = binary op l r
  | comp _ _ => False
  | special _ a => a.Canonical

/-- The tree made again by the constructors, from the leaves upward. -/
def rebuild : Expr → Expr
  | binary op l r => op.apply l.rebuild r.rebuild
  | special k a => special k a.rebuild
  | f => f

/-- The constructors give a canonical tree back. -/
theorem Canonical.rebuild_eq {f : Expr} (h : f.Canonical) : f.rebuild = f := by
  induction f with
  | var | e | pi | const => rfl
  | binary op l r ihl ihr =>
    obtain ⟨hl, hr, plain⟩ := h
    rw [rebuild, ihl hl, ihr hr, plain]
  | comp => exact h.elim
  | special k a ih => rw [rebuild, ih h]

/-- Nothing is left of a tree times zero, whatever it is. -/
theorem scale_zero (g : Expr) : scale 0 g = const 0 := by
  fun_cases scale 0 g <;> simp_all

/-- A constant on the right is a coefficient as well. -/
theorem mul_const_right (f : Expr) (c : Rat) : mul f (const c) = scale c f := by
  unfold mul
  split
  · rw [scale, scale, Rat.mul_comm]
  · rw [mulInto]
  · rw [mulInto]

theorem mul_zero_left (g : Expr) : mul (const 0) g = const 0 := by
  rw [mul, scale_zero]

theorem mul_zero_right (f : Expr) : mul f (const 0) = const 0 := by
  rw [mul_const_right, scale_zero]

theorem mul_one_left (g : Expr) : mul (const 1) g = g := by
  rw [mul, scale_one]

theorem mul_one_right (f : Expr) : mul f (const 1) = f := by
  rw [mul_const_right, scale_one]

/-- A canonical multiple has a coefficient, as the multiple by zero is zero. -/
theorem Canonical.coefficient_ne_zero {c : Rat} {u : Expr}
    (h : (binary .mul (const c) u).Canonical) : c ≠ 0 := by
  rintro rfl
  have plain : scale 0 u = binary .mul (const 0) u := h.2.2
  rw [scale_zero] at plain
  contradiction

theorem powr_zero (f : Expr) : powr f 0 = const 1 := by
  unfold powr
  split <;> simp [constPow]

/-- A canonical power has an exponent, as the power with the exponent zero is one. -/
theorem Canonical.exponent_ne_zero {u : Expr} {c : Rat}
    (h : (binary .pow u (const c)).Canonical) : c ≠ 0 := by
  rintro rfl
  have plain : powr u 0 = binary .pow u (const 0) := h.2.2
  rw [powr_zero] at plain
  contradiction

/-- The base of a power with a constant exponent is no such power itself. -/
theorem Canonical.base_ne_power {u : Expr} {c : Rat} (h : (binary .pow u (const c)).Canonical)
    (w : Expr) (d : Rat) : u ≠ binary .pow w (const d) := by
  rintro rfl
  have plain : powr (binary .pow w (const d)) c = binary .pow (binary .pow w (const d)) (const c) :=
    h.2.2
  have lighter := tally_weight.powr w (d * c)
  unfold powr at plain
  split at plain
  · contradiction
  · split at plain
    · have := congrArg size plain
      simp only [size] at this
      omega
    · rw [plain] at lighter
      simp only [weight] at lighter
      omega

/-- The base of a canonical power is no power with a constant exponent: the exponents would have
been multiplied. -/
theorem Canonical.base_exponent_ne_power {f : Expr} {c : Rat} (hf : f.Canonical)
    (h : exponent f = const c) (w : Expr) (d : Rat) : base f ≠ binary .pow w (const d) := by
  unfold base exponent at *
  split at h
  · subst h
    exact hf.base_ne_power w d
  · rename_i notPower
    exact notPower w (const d)

section Constructors

variable {f g : Expr}

/-- A quotient that is folded is a constant or one of the operands, and any other is the plain node.
-/
theorem canonical_div (hf : f.Canonical) (hg : g.Canonical) : (div f g).Canonical := by
  by_cases plain : div f g = binary .div f g
  · rw [plain]; exact ⟨hf, hg, plain⟩
  · fun_cases div f g with
    | case2 | case4 | case5 => trivial
    | case3 => exact hf
    | case1 | case6 => simp_all [div]

/-- A power of constants that is not folded would not be folded again. -/
theorem canonical_constPow (c r : Rat) : (constPow c r).Canonical := by
  by_cases plain : constPow c r = binary .pow (const c) (const r)
  · rw [plain]; exact ⟨trivial, trivial, plain⟩
  · fun_cases constPow c r with
    | case4 => simp_all [constPow]
    | _ => trivial

/-- A coefficient moves to where it would move again. -/
theorem canonical_scale (c : Rat) (hg : g.Canonical) : (scale c g).Canonical := by
  fun_induction scale c g with
  | case3 | case6 | case10 | case14 => exact hg
  | case4 c d h _ _ ih => exact ih hg.2.1
  | case7 => exact hg.1
  | case8 c a b _ _ _ ih => exact canonical_div (ih hg.1) hg.2.1
  | case11 => exact canonical_constPow ..
  | case12 c d k h0 h1 hd => exact ⟨trivial, hg, by simp [Op.apply, mul, scale, h0, h1, hd]⟩
  | case15 c g _ _ _ _ h0 h1 => exact ⟨trivial, hg, by simp_all [Op.apply, mul, scale]⟩
  | _ => trivial

theorem canonical_neg (hf : f.Canonical) : (neg f).Canonical := canonical_scale _ hf

/-- A numerator that is taken back is an operand. -/
theorem canonical_of_over? {x : Expr} (h : over? g f = some x) (hf : f.Canonical) :
    x.Canonical := by
  obtain rfl := over?_eq_some h
  exact hf.1

/-- `plain` is only asked for the trees that `mulInto` leaves as they are. -/
theorem canonical_mulInto {plain : Expr → Expr} (hf : f.Canonical)
    (hp : ∀ k, k.Canonical → mulInto f plain k = plain k → (plain k).Canonical)
    (hg : g.Canonical) : (mulInto f plain g).Canonical := by
  fun_induction mulInto f plain g with
  | case1 c => exact canonical_scale c hf
  | case2 a b same => exact hp _ hg (by simp [mulInto, same])
  | case3 => exact hg.1
  | case4 _ _ _ _ _ h | case7 _ _ _ _ h | case9 _ _ _ _ _ h => exact canonical_of_over? h hf
  | case5 a b _ _ _ ih => exact canonical_div (ih hg.1) hg.2.1
  | case6 d h same => exact hp _ hg (by simp [mulInto, same])
  | case8 d h _ _ ih => exact canonical_scale d (ih hg.2.1)
  | case10 g _ _ _ none => exact hp _ hg (by simp_all [mulInto])

/-- A power with a constant exponent, by recursion on the base. -/
theorem canonical_powr (r : Rat) (hf : f.Canonical) : (powr f r).Canonical := by
  fun_induction powr f r with
  | case1 c r => exact canonical_constPow c r
  | case3 | case6 | case11 => exact hf
  | case4 u c r _ _ ih => exact ih hf.1
  | case7 c u r _ _ _ q _ ih => exact canonical_scale q (ih hf.2.1)
  | case8 c u r _ _ integer kept =>
    exact absurd (constPow_eq_pole integer kept).1 hf.coefficient_ne_zero
  | case9 c u r h0 h1 broken =>
    exact ⟨hf, trivial, by simp [Op.apply, power, powr, h0, h1, broken]⟩
  | case12 f r _ _ _ h0 h1 => exact ⟨hf, trivial, by simp_all [Op.apply, power, powr]⟩
  | _ => trivial

theorem canonical_base (hf : f.Canonical) : (base f).Canonical := by
  unfold base
  split
  · exact hf.1
  · exact hf

/-- Powers of one base make a canonical power; the plain node is canonical if the product makes it.
-/
theorem canonical_mergePowers (hf : f.Canonical) (hg : g.Canonical)
    (plain : mul f g = mergePowers f g) : (mergePowers f g).Canonical := by
  fun_cases mergePowers f g with
  | case1 => exact canonical_powr 2 hf
  | case2 => exact canonical_powr _ (canonical_base hf)
  | case3 | case4 => exact ⟨hf, hg, by simp_all [Op.apply, mergePowers]⟩

/-- A product, by recursion on the left factor. -/
theorem canonical_mul (hf : f.Canonical) (hg : g.Canonical) : (mul f g).Canonical := by
  fun_induction mul f g with
  | case1 c g => exact canonical_scale c hg
  | case2 c h g ih =>
    refine canonical_mulInto hf ?_ hg
    intro k hk _
    split
    · exact canonical_powr 2 hf
    · exact canonical_scale c (ih k hf.2.1 hk)
  | case3 f g notConst notMultiple =>
    refine canonical_mulInto hf (fun k hk plain => canonical_mergePowers hf hk ?_) hg
    rw [← plain, mul]
    · exact notConst
    · exact notMultiple

/-- A power with a varying exponent folds at the bases one and `e` only. -/
theorem canonical_power (hf : f.Canonical) (hg : g.Canonical) : (power f g).Canonical := by
  fun_cases power f g with
  | case1 r => exact canonical_powr r hf
  | case2 => exact hf
  | case3 => exact hg
  | case4 => exact canonical_powr _ hg.2.1
  | case5 | case6 => exact ⟨hf, hg, by simp_all [Op.apply, power]⟩

theorem canonical_coefficient (hf : f.Canonical) : (coefficient f).2.Canonical := by
  unfold coefficient
  split
  · exact hf.2.1
  · exact hf

/-- Like terms make a canonical multiple; the plain node is canonical if the operation makes it. -/
theorem canonical_collect {op : Op} {merge : Rat → Rat → Rat} (hf : f.Canonical)
    (hg : g.Canonical) (plain : op.apply f g = collect op merge f g) :
    (collect op merge f g).Canonical := by
  fun_cases collect op merge f g with
  | case1 => exact canonical_scale _ (canonical_coefficient hf)
  | case2 => exact ⟨hf, hg, by simp_all [collect]⟩

/-- By the rules of subtraction. -/
theorem canonical_of_subtracts {h : Expr} (rules : Subtracts f g h) (hf : f.Canonical)
    (hg : g.Canonical) : h.Canonical := by
  induction rules with
  | zero => exact hf
  | same | constants => trivial
  | negated => exact canonical_neg hg
  | firstSummand => exact hf.2.1
  | secondSummand => exact hf.1
  | minuend => exact canonical_neg hf.2.1
  | subtrahend _ ih => exact ih hf.1 (canonical_scale 2 hg)
  | collected plain => exact canonical_collect hf hg plain

theorem canonical_sub (hf : f.Canonical) (hg : g.Canonical) : (sub f g).Canonical :=
  canonical_of_subtracts (subtracts_sub f g) hf hg

/-- By the rules of addition. -/
theorem canonical_of_adds {h : Expr} (rules : Adds f g h) (hf : f.Canonical)
    (hg : g.Canonical) : h.Canonical := by
  induction rules with
  | zeroLeft => exact hg
  | zeroRight => exact hf
  | constants => trivial
  | double => exact canonical_scale 2 hf
  | firstSummand _ ih => exact ih (canonical_scale 2 hg) hf.2.1
  | secondSummand _ ih => exact ih (canonical_scale 2 hg) hf.1
  | minuend => exact canonical_sub (canonical_scale 2 hg) hf.2.1
  | subtrahend => exact hf.1
  | collected plain => exact canonical_collect hf hg plain

theorem canonical_add (hf : f.Canonical) (hg : g.Canonical) : (add f g).Canonical :=
  canonical_of_adds (adds_add f g) hf hg

/-- Whatever the constructors make of canonical trees is canonical. -/
theorem canonical_apply (op : Op) (hf : f.Canonical) (hg : g.Canonical) :
    (op.apply f g).Canonical := by
  cases op with
  | add => exact canonical_add hf hg
  | sub => exact canonical_sub hf hg
  | mul => exact canonical_mul hf hg
  | div => exact canonical_div hf hg
  | pow => exact canonical_power hf hg

end Constructors

end Fluxion.Expr
