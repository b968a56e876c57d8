import Fluxion.Expr.Sum

/-!
# The rules of sums and differences

`Subtracts f g h` and `Adds f g h` say which rule makes `h` out of the terms `f` and `g`. Each
constructor is one rule of the code, with the shape of the terms that the rule looks for; a proof
about `sub` or `add` goes by induction on the rules.
-/

namespace Fluxion.Expr
set_option autoImplicit false

/-- The rules of a difference. -/
inductive Subtracts : Expr → Expr → Expr → Prop
  | zero (f) : Subtracts f (const 0) f
  | same (f) : Subtracts f f (const 0)
  | constants (a b) : Subtracts (const a) (const b) (const (a - b))
  | negated (g) : Subtracts (const 0) g (neg g)
  | firstSummand (l r) : Subtracts (binary .add l r) l r
  | secondSummand (l r) : Subtracts (binary .add l r) r l
  | minuend (l r) : Subtracts (binary .sub l r) l (neg r)
  | subtrahend {l r h} (rest : Subtracts l (scale 2 r) h) : Subtracts (binary .sub l r) r h
  | collected {f g} (plain : sub f g = collect .sub (· - ·) f g) :
      Subtracts f g (collect .sub (· - ·) f g)

/-- The rules of a sum. -/
inductive Adds : Expr → Expr → Expr → Prop
  | zeroLeft (g) : Adds (const 0) g g
  | zeroRight (f) : Adds f (const 0) f
  | constants (a b) : Adds (const a) (const b) (const (a + b))
  | double (f) : Adds f f (scale 2 f)
  | firstSummand {l r h} (rest : Adds (scale 2 l) r h) : Adds (binary .add l r) l h
  | secondSummand {l r h} (rest : Adds (scale 2 r) l h) : Adds (binary .add l r) r h
  | minuend (l r) : Adds (binary .sub l r) l (sub (scale 2 l) r)
  | subtrahend (l r) : Adds (binary .sub l r) r l
  | collected {f g} (plain : add f g = collect .add (· + ·) f g) :
      Adds f g (collect .add (· + ·) f g)

variable {f g : Expr}

/-- A difference follows the rules. -/
theorem subtracts_sub (f g : Expr) : Subtracts f g (sub f g) := by
  -- The equation is kept, as the case of like terms asks that no other rule applied.
  have whole := sub.eq_def f g
  split at whole
  · rename_i zero
    subst zero
    rw [whole]
    exact .zero f
  split at whole
  · rename_i same
    subst same
    rw [whole]
    exact .same f
  split at whole
  · split at whole
    · rw [whole]
      exact .constants ..
    split at whole
    · rename_i ha
      subst ha
      rw [whole]
      exact .negated g
    · rw [whole]
      exact .collected whole
  · split at whole
    · rename_i first
      subst first
      rw [whole]
      exact .firstSummand ..
    split at whole
    · rename_i second
      subst second
      rw [whole]
      exact .secondSummand ..
    · rw [whole]
      exact .collected whole
  · rename_i l r _
    split at whole
    · rename_i first
      subst first
      rw [whole]
      exact .minuend ..
    split at whole
    · rename_i second
      subst second
      rw [whole]
      exact .subtrahend (subtracts_sub l (scale 2 r))
    · rw [whole]
      exact .collected whole
  · rw [whole]
    exact .collected whole
termination_by f.size
decreasing_by
  subst_vars
  simp only [size]
  omega

/-- A sum follows the rules. -/
theorem adds_add (f g : Expr) : Adds f g (add f g) := by
  -- As for differences. The recursion is on what the two trees still have to be joined with.
  have whole := add.eq_def f g
  split at whole
  · rename_i zero
    subst zero
    rw [whole]
    exact .zeroLeft g
  split at whole
  · rename_i zero
    subst zero
    rw [whole]
    exact .zeroRight f
  split at whole
  · split at whole
    · rw [whole]
      exact .constants ..
    · rw [whole]
      exact .collected whole
  · rename_i l r _
    split at whole
    · rename_i same
      subst same
      rw [whole]
      exact .double _
    split at whole
    · rename_i first
      subst first
      rw [whole]
      exact .firstSummand (adds_add (scale 2 l) r)
    split at whole
    · rename_i second
      subst second
      rw [whole]
      exact .secondSummand (adds_add (scale 2 r) l)
    · rw [whole]
      exact .collected whole
  · split at whole
    · rename_i same
      subst same
      rw [whole]
      exact .double _
    split at whole
    · rename_i first
      subst first
      rw [whole]
      exact .minuend ..
    split at whole
    · rename_i second
      subst second
      rw [whole]
      exact .subtrahend ..
    · rw [whole]
      exact .collected whole
  · split at whole
    · rename_i same
      subst same
      rw [whole]
      exact .double _
    · rw [whole]
      exact .collected whole
termination_by pending f g
decreasing_by
  all_goals
    subst_vars
    refine Nat.lt_of_lt_of_le pending_scale_lt ?_
    simp only [pending, isSum, size, if_true]
    omega

theorem add_zero_left (g : Expr) : add (const 0) g = g := by
  rw [add.eq_def, if_pos rfl]

theorem add_zero_right (f : Expr) : add f (const 0) = f := by
  rw [add.eq_def]
  split
  · rename_i zero
    exact zero.symm
  · rw [if_pos rfl]

theorem sub_zero_right (f : Expr) : sub f (const 0) = f := by
  rw [sub.eq_def, if_pos rfl]

theorem sub_zero_left (g : Expr) : sub (const 0) g = neg g := by
  rw [sub.eq_def]
  cases g with
  | const b =>
    by_cases zero : b = 0
    · simp [zero, neg, scale]
    · have opposite : 0 - b = -1 * b := by grind
      simp [zero, Ne.symm zero, neg, scale, opposite]
  | _ => simp

/-- Equal terms make twice the term. -/
theorem add_self (f : Expr) : add f f = scale 2 f := by
  rw [add.eq_def]
  split
  · rename_i zero
    rw [zero, scale, Rat.mul_zero]
  · cases f with
    | const a =>
      have twice : 2 * a = a + a := by grind
      simp only [scale, twice]
    | binary op l r => cases op <;> simp
    | _ => simp

end Fluxion.Expr
