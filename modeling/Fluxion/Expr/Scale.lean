import Fluxion.Expr.Basic
import Fluxion.Power

/-!
# Quotients, powers of constants, and scaling by a constant

The constructors that recurse into nothing but their right operand. `div` cancels equal
operands and folds constants; `constPow` folds a constant under an integer exponent, unless
the base is zero and the exponent negative; `scale c g` is `g` times the constant `c`, with
the constant moved to the front, merged with a leading constant of `g`, and carried into
the numerator of a quotient.

A scaling by a constant other than one that leaves a sum or a difference on top was an
unwrapping, so its result is smaller than `g` (`size_scale_lt`); addition terminates by it.
-/

namespace Fluxion
set_option autoImplicit false

namespace Expr

/-- The quotient of two trees. -/
def div (f g : Expr) : Expr :=
  if g = const 0 then binary .div f g
  else if f = g then const 1
  else if g = const 1 then f
  else if f = const 0 then const 0
  else match f, g with
    | const a, const b => const (a / b)
    | _, _ => binary .div f g

/-- The constant `c` to the power `r`. -/
def constPow (c r : Rat) : Expr :=
  if r = 0 then const 1
  else if r = 1 ∨ c = 1 then const c
  else if r.den = 1 ∧ (c ≠ 0 ∨ 0 < r) then const (fractionPower c r.num)
  else binary .pow (const c) (const r)

/-- The constant `c` times a tree. -/
def scale (c : Rat) : Expr → Expr
  | const d => const (c * d)
  | binary .mul (const d) h =>
    if c = 0 then const 0 else if c = 1 then binary .mul (const d) h else scale (c * d) h
  | binary .div a b =>
    if c = 0 then const 0
    else if c = 1 then binary .div a b
    else if b = const c then a
    else div (scale c a) b
  | binary .pow (const d) (const k) =>
    if c = 0 then const 0
    else if c = 1 then binary .pow (const d) (const k)
    else if d = c then constPow c (1 + k)
    else binary .mul (const c) (binary .pow (const d) (const k))
  | g => if c = 0 then const 0 else if c = 1 then g else binary .mul (const c) g

/-- The tree with the opposite sign. -/
def neg (f : Expr) : Expr := scale (-1) f

/-- Whether a sum or a difference is on top. -/
def isSum : Expr → Bool
  | binary .add _ _ | binary .sub _ _ => true
  | _ => false

/-- A quotient is a sum only if it is its numerator. -/
theorem isSum_div {f g : Expr} (h : (div f g).isSum = true) : div f g = f ∧ g = const 1 := by
  unfold div at h ⊢
  split at h
  · simp [isSum] at h
  · split at h
    · simp [isSum] at h
    · split at h
      · simp_all
      · split at h
        · simp [isSum] at h
        · split at h <;> simp [isSum] at h

theorem isSum_constPow (c r : Rat) : (constPow c r).isSum = false := by
  unfold constPow
  repeat' split
  all_goals rfl

/-- An integer power of a constant other than zero is a constant. -/
theorem constPow_eq_const {c r : Rat} (hc : c ≠ 0) (hr : r.den = 1) :
    ∃ q, constPow c r = const q := by
  unfold constPow
  split
  · exact ⟨_, rfl⟩
  · split
    · exact ⟨_, rfl⟩
    · exact ⟨_, if_pos ⟨hr, .inl hc⟩⟩

theorem scale_one (g : Expr) : scale 1 g = g := by
  unfold scale
  split <;> simp

/-- A multiple that is a sum was taken out of a larger tree. -/
theorem size_scale_lt {c : Rat} {g : Expr} (hc : c ≠ 1) (h : (scale c g).isSum = true) :
    (scale c g).size < g.size := by
  fun_induction scale c g with
  | case4 c d u _ _ ih =>
    simp only [size]
    by_cases one : c * d = 1
    · rw [one, scale_one]; omega
    · have := ih one h; omega
  | case7 => simp only [size]; omega
  | case8 c a b _ _ _ ih =>
    obtain ⟨same, -⟩ := isSum_div h
    rw [same] at h ⊢
    have := ih hc h
    simp only [size]; omega
  | case11 => rw [isSum_constPow] at h; contradiction
  | _ => simp_all [isSum]

end Expr

end Fluxion
