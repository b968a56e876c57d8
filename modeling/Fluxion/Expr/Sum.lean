import Fluxion.Expr.Product

/-!
# Sums and differences

`add` and `sub` fold constants, drop zeros, cancel a term against an equal term at either
end of a sum or a difference, and collect two multiples of one tree into one multiple.
-/

namespace Fluxion
set_option autoImplicit false

namespace Expr

/-- Two multiples of one tree as one multiple, by `merge` on their coefficients; otherwise
the plain node of `op`. -/
def collect (op : Op) (merge : Rat → Rat → Rat) (f g : Expr) : Expr :=
  if (coefficient f).2 = (coefficient g).2 then
    scale (merge (coefficient f).1 (coefficient g).1) (coefficient f).2
  else binary op f g

/-- The difference of two trees. -/
def sub (f g : Expr) : Expr :=
  if g = const 0 then f
  else if f = g then const 0
  else match f with
    | const a =>
      match g with
      | const b => const (a - b)
      | g => if a = 0 then neg g else collect .sub (· - ·) (const a) g
    | binary .add l r =>
      if l = g then r else if r = g then l else collect .sub (· - ·) (binary .add l r) g
    | binary .sub l r =>
      if l = g then neg r
      else if r = g then sub l (scale 2 g)
      else collect .sub (· - ·) (binary .sub l r) g
    | f => collect .sub (· - ·) f g

/-- What bounds the cancelling in a sum: the sizes of both terms while the left one still is a
sum or a difference. -/
def pending (f g : Expr) : Nat := if f.isSum then f.size + g.size else 0

theorem pending_scale_lt {g r : Expr} : pending (scale 2 g) r < 1 + (g.size + r.size) := by
  unfold pending
  split
  · rename_i sum
    have := size_scale_lt (by decide) sum
    omega
  · omega

/-- The sum of two trees. -/
def add (f g : Expr) : Expr :=
  if f = const 0 then g
  else if g = const 0 then f
  else match f with
    | const a =>
      match g with
      | const b => const (a + b)
      | g => collect .add (· + ·) (const a) g
    | binary .add l r =>
      if binary .add l r = g then scale 2 (binary .add l r)
      else if l = g then add (scale 2 g) r
      else if r = g then add (scale 2 g) l
      else collect .add (· + ·) (binary .add l r) g
    | binary .sub l r =>
      if binary .sub l r = g then scale 2 (binary .sub l r)
      else if l = g then sub (scale 2 g) r
      else if r = g then l
      else collect .add (· + ·) (binary .sub l r) g
    | f => if f = g then scale 2 f else collect .add (· + ·) f g
termination_by pending f g
decreasing_by
  · subst_vars
    refine Nat.lt_of_lt_of_le pending_scale_lt ?_
    simp [pending, isSum, size]
  · subst_vars
    refine Nat.lt_of_lt_of_le pending_scale_lt ?_
    simp [pending, isSum, size]; omega

end Expr

end Fluxion
