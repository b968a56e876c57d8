import Fluxion.Number
import Fluxion.Parse
import Fluxion.Proofs.Hereditary

/-!
# Constructors with checked numbers

The constructors compute with fractions, where a quotient by zero, a negative power of zero and a
number that is no fraction are faults. Here every number of a tree comes from a step that reports
these faults, and the constructors pass them on. They never meet one: a quotient of constants is
taken behind the test of the denominator (`div_eq`), a power of a constant behind the test of the
base and the exponent (`constPow_eq`), and all the others reach numbers through these two, sums,
differences and products. So each of them is the constructor without checks, on all trees
(`apply_eq`).
-/

namespace Fluxion.Checked
set_option autoImplicit false

@[simp] theorem ok_bind {α β : Type} (a : α) (k : α → Outcome β) : (.ok a >>= k) = k a := rfl

@[simp] theorem pure_eq_ok {α : Type} (a : α) : (pure a : Outcome α) = .ok a := rfl

section Numbers

/-- The fraction of a constant. A number of another kind makes the constant ill-typed. -/
def exact (n : Number) : Outcome Rat :=
  match n.exactFraction? with
  | some q => .ok q
  | none => .error (.quoting (.illTyped "value" · "Rational") n.shown)

/-- Two fractions joined by an operation on numbers. -/
def join (op : Number → Number → Outcome Number) (a b : Rat) : Outcome Rat := do
  exact (← op (.fraction a) (.fraction b))

/-- A fraction to the power of an integer. -/
def pow (a : Rat) (n : Int) : Outcome Rat := do
  exact (← Number.pow (.fraction a) (.int n))

variable {a b : Rat}

@[simp] theorem join_add : join Number.add a b = .ok (a + b) := rfl

@[simp] theorem join_sub : join Number.sub a b = .ok (a - b) := rfl

@[simp] theorem join_mul : join Number.mul a b = .ok (a * b) := rfl

/-- The quotient is the one step here that can fail. -/
theorem join_div (a b : Rat) :
    join Number.div a b = if b = 0 then .error .divisionByZero else .ok (a / b) := by
  show (Number.divFractions a b >>= exact) = _
  unfold Number.divFractions
  split <;> rfl

/-- A power fails only where it would divide by zero. -/
theorem pow_eq (a : Rat) (n : Int) :
    pow a n =
      if a = 0 ∧ n < 0 then .error .divisionByZero else .ok (fractionPower a n) := by
  unfold pow Number.pow
  dsimp only
  split <;> rfl

end Numbers

section Products

/-- The quotient; that of two constants is taken in numbers. -/
def div (f g : Expr) : Outcome Expr :=
  if g = .const 0 then .ok (.binary .div f g)
  else if f = g then .ok (.const 1)
  else if g = .const 1 then .ok f
  else if f = .const 0 then .ok (.const 0)
  else match f, g with
    | .const a, .const b => do return .const (← join Number.div a b)
    | _, _ => .ok (.binary .div f g)

/-- The power of two constants, taken in numbers where it is one. -/
def constPow (c r : Rat) : Outcome Expr :=
  if r = 0 then .ok (.const 1)
  else if r = 1 ∨ c = 1 then .ok (.const c)
  else if r.den = 1 ∧ (c ≠ 0 ∨ 0 < r) then do return .const (← pow c r.num)
  else .ok (.binary .pow (.const c) (.const r))

/-- A constant times a tree. The factors that are joined are numbers. -/
def scale (c : Rat) : Expr → Outcome Expr
  | .const d => do return .const (← join Number.mul c d)
  | .binary .mul (.const d) h =>
    if c = 0 then .ok (.const 0)
    else if c = 1 then .ok (.binary .mul (.const d) h)
    else do scale (← join Number.mul c d) h
  | .binary .div a b =>
    if c = 0 then .ok (.const 0)
    else if c = 1 then .ok (.binary .div a b)
    else if b = .const c then .ok a
    else do div (← scale c a) b
  | .binary .pow (.const d) (.const k) =>
    if c = 0 then .ok (.const 0)
    else if c = 1 then .ok (.binary .pow (.const d) (.const k))
    else if d = c then do constPow c (← join Number.add 1 k)
    else .ok (.binary .mul (.const c) (.binary .pow (.const d) (.const k)))
  | g =>
    if c = 0 then .ok (.const 0)
    else if c = 1 then .ok g
    else .ok (.binary .mul (.const c) g)

/-- The opposite of a tree. -/
def neg (f : Expr) : Outcome Expr := scale (-1) f

/-- The product of `f` and a tree that may cancel against it, multiplied by `plain` where nothing
does. -/
def mulInto (f : Expr) (plain : Expr → Outcome Expr) : Expr → Outcome Expr
  | .const c => scale c f
  | .binary .div a b =>
    if f = .binary .div a b then plain (.binary .div a b)
    else if b = f then .ok a
    else match Expr.over? (.binary .div a b) f with
      | some x => .ok x
      | none => do div (← mulInto f plain a) b
  | .binary .mul (.const d) h =>
    if f = .binary .mul (.const d) h then plain (.binary .mul (.const d) h)
    else match Expr.over? (.binary .mul (.const d) h) f with
      | some x => .ok x
      | none => do scale d (← mulInto f plain h)
  | g => match Expr.over? g f with
    | some x => .ok x
    | none => plain g

/-- The product with a power of zero, which joins another power of zero. -/
def joinPole (r : Rat) : Expr → Outcome Expr
  | .binary .pow (.const d) (.const k) =>
    if d = 0 then do constPow 0 (← join Number.add r k)
    else .ok (.binary .mul (.pole r) (.binary .pow (.const d) (.const k)))
  | g => .ok (.binary .mul (.pole r) g)

/-- A power of zero times a tree. -/
def mulPole (r : Rat) (g : Expr) : Outcome Expr := mulInto (.pole r) (joinPole r) g

/-- The power with a constant exponent. Nested exponents are multiplied in numbers. -/
def powr : Expr → Rat → Outcome Expr
  | .const c, r => constPow c r
  | .binary .pow u (.const c), r =>
    if r = 0 then .ok (.const 1)
    else if r = 1 then .ok (.binary .pow u (.const c))
    else do powr u (← join Number.mul c r)
  | .binary .mul (.const c) u, r =>
    if r = 0 then .ok (.const 1)
    else if r = 1 then .ok (.binary .mul (.const c) u)
    else if r.den = 1 then do
      match ← constPow c r with
      | .const q => scale q (← powr u r)
      | _ => mulPole r (← powr u r)
    else .ok (.binary .pow (.binary .mul (.const c) u) (.const r))
  | f, r =>
    if r = 0 then .ok (.const 1) else if r = 1 then .ok f else .ok (.binary .pow f (.const r))

/-- The product of two powers; the exponents of one base are added in numbers. -/
def mergePowers (f g : Expr) : Outcome Expr :=
  if f = g then powr f 2
  else if f.base = g.base then
    match f.exponent, g.exponent with
    | .const a, .const b => do powr f.base (← join Number.add a b)
    | _, _ => .ok (.binary .mul f g)
  else .ok (.binary .mul f g)

/-- The product. A coefficient of the left factor is taken out where nothing cancels. -/
def mul : Expr → Expr → Outcome Expr
  | .const c, g => scale c g
  | .binary .mul (.const c) h, g =>
    mulInto (.binary .mul (.const c) h)
      (fun k => if .binary .mul (.const c) h = k then powr (.binary .mul (.const c) h) 2
        else do scale c (← mul h k)) g
  | f, g => mulInto f (mergePowers f) g

/-- The power. Only one with a constant exponent computes with numbers. -/
def power (f g : Expr) : Outcome Expr :=
  match g with
  | .const r => powr f r
  | g =>
    if f = .const 1 then .ok f
    else if f = .e then
      match g with
      | .special .ln a => .ok a
      | .binary .mul (.const c) (.special .ln a) => powr a c
      | _ => .ok (.binary .pow f g)
    else .ok (.binary .pow f g)

/-- The only quotient of constants has a denominator that was found not to be zero. -/
theorem div_eq (f g : Expr) : div f g = .ok (f.div g) := by
  fun_cases Expr.div f g with
  | case5 a b numerator denominator =>
    have nonzero : b ≠ 0 := by
      rintro rfl
      exact denominator rfl
    simp_all [div, join_div]
  | _ => simp_all [div]

/-- The only power of a constant has a base other than zero or a positive exponent. -/
theorem pow_eq_ok {c r : Rat} (fine : c ≠ 0 ∨ 0 < r) :
    pow c r.num = .ok (fractionPower c r.num) := by
  have defined : ¬(c = 0 ∧ r.num < 0) := by
    rintro ⟨zero, negative⟩
    rcases fine with nonzero | positive
    · exact nonzero zero
    · have := Rat.num_nonneg.2 (Rat.le_of_lt positive)
      omega
  rw [pow_eq, if_neg defined]

/-- The test of the base and the exponent is the one that `pow_eq_ok` asks for. -/
theorem constPow_eq (c r : Rat) : constPow c r = .ok (Expr.constPow c r) := by
  unfold constPow Expr.constPow
  split
  · rfl
  split
  · rfl
  split
  · rename_i integer
    rw [pow_eq_ok integer.2]
    rfl
  · rfl

/-- Multiples join by products, which never fail; a quotient and a power are taken behind their
tests. -/
theorem scale_eq (c : Rat) (g : Expr) : scale c g = .ok (g.scale c) := by
  fun_induction Expr.scale c g with
  | case8 => simp_all [scale, div_eq]
  | case11 => simp_all [scale, constPow_eq]
  | _ => simp_all [scale]

/-- What a multiple was checked to be is the multiple. -/
theorem eq_of_scale {c : Rat} {g h : Expr} (made : scale c g = .ok h) : h = g.scale c := by
  rw [scale_eq] at made
  exact (Except.ok.inj made).symm

/-- The opposite is a multiple. -/
theorem neg_eq (f : Expr) : neg f = .ok f.neg := scale_eq (-1) f

/-- A product fails only where the plain product does. -/
theorem mulInto_eq {plain : Expr → Outcome Expr} {plain' : Expr → Expr}
    (same : ∀ k, plain k = .ok (plain' k)) (f g : Expr) :
    mulInto f plain g = .ok (f.mulInto plain' g) := by
  fun_induction Expr.mulInto f plain' g <;> simp_all [mulInto, scale_eq, div_eq]

theorem joinPole_eq (r : Rat) (g : Expr) : joinPole r g = .ok (Expr.joinPole r g) := by
  fun_cases Expr.joinPole r g <;> simp_all [joinPole, constPow_eq]

theorem mulPole_eq (r : Rat) (g : Expr) : mulPole r g = .ok (Expr.mulPole r g) :=
  mulInto_eq (joinPole_eq r) _ g

/-- Exponents join by products, which never fail. -/
theorem powr_eq (f : Expr) (r : Rat) : powr f r = .ok (f.powr r) := by
  fun_induction Expr.powr f r <;> simp_all [powr, constPow_eq, scale_eq, mulPole_eq]

/-- Exponents of one base join by sums, which never fail. -/
theorem mergePowers_eq (f g : Expr) : mergePowers f g = .ok (f.mergePowers g) := by
  fun_cases Expr.mergePowers f g <;> simp_all [mergePowers, powr_eq]

/-- Every branch of the product ends in a multiple, a power or a quotient. -/
theorem mul_eq (f g : Expr) : mul f g = .ok (f.mul g) := by
  fun_induction Expr.mul f g with
  | case1 => exact scale_eq ..
  | case2 c h g ih =>
    rw [mul, mulInto_eq]
    intro k
    split
    · exact powr_eq ..
    · rw [ih, ok_bind, scale_eq]
  | case3 => simp_all [mul, mulInto_eq (mergePowers_eq _)]

/-- A power with a varying exponent computes with no numbers at all. -/
theorem power_eq (f g : Expr) : power f g = .ok (f.power g) := by
  fun_cases Expr.power f g <;> simp_all [power, powr_eq]

end Products

section Sums

/-- The sum or difference of multiples of one tree, with the coefficients joined in numbers. -/
def collect (op : Op) (merge : Number → Number → Outcome Number) (f g : Expr) : Outcome Expr :=
  if f.coefficient.2 = g.coefficient.2 then do
    scale (← join merge f.coefficient.1 g.coefficient.1) f.coefficient.2
  else .ok (.binary op f g)

/-- Coefficients join as the operation on fractions does. -/
theorem collect_eq (op : Op) {merge : Number → Number → Outcome Number} {merge' : Rat → Rat → Rat}
    (same : ∀ a b, join merge a b = .ok (merge' a b)) (f g : Expr) :
    collect op merge f g = .ok (f.collect op merge' g) := by
  unfold collect Expr.collect
  split
  · rw [same, ok_bind, scale_eq]
  · rfl

theorem collect_add_eq (f g : Expr) :
    collect .add Number.add f g = .ok (f.collect .add (· + ·) g) :=
  collect_eq .add (fun _ _ => join_add) f g

theorem collect_sub_eq (f g : Expr) :
    collect .sub Number.sub f g = .ok (f.collect .sub (· - ·) g) :=
  collect_eq .sub (fun _ _ => join_sub) f g

/-- The difference. Constants and the coefficients of like terms are joined in numbers. -/
def sub (f g : Expr) : Outcome Expr :=
  if g = .const 0 then .ok f
  else if f = g then .ok (.const 0)
  else match f with
    | .const a =>
      match g with
      | .const b => do return .const (← join Number.sub a b)
      | g => if a = 0 then neg g else collect .sub Number.sub (.const a) g
    | .binary .add l r =>
      if l = g then .ok r
      else if r = g then .ok l
      else collect .sub Number.sub (.binary .add l r) g
    | .binary .sub l r =>
      if l = g then neg r
      else if r = g then do sub l (← scale 2 g)
      else collect .sub Number.sub (.binary .sub l r) g
    | f => collect .sub Number.sub f g

/-- A difference joins constants and coefficients only by differences. -/
theorem sub_eq (f g : Expr) : sub f g = .ok (f.sub g) := by
  fun_induction sub f g with
  | case1 => rw [Expr.sub.eq_def, if_pos rfl]
  | case2 g nonzero => rw [Expr.sub.eq_def, if_neg nonzero, if_pos rfl]
  | _ => simp_all [Expr.sub, neg_eq, scale_eq, collect_sub_eq]

/-- The sum ends as the one without checks does, so the tree that is added next must be known to be
the same. -/
def add (f g : Expr) : Outcome Expr :=
  if f = .const 0 then .ok g
  else if g = .const 0 then .ok f
  else match f with
    | .const a =>
      match g with
      | .const b => do return .const (← join Number.add a b)
      | g => collect .add Number.add (.const a) g
    | .binary .add l r =>
      if .binary .add l r = g then scale 2 (.binary .add l r)
      else if l = g then
        match _h : scale 2 g with
        | .ok doubled => add doubled r
        | .error fault => .error fault
      else if r = g then
        match _h : scale 2 g with
        | .ok doubled => add doubled l
        | .error fault => .error fault
      else collect .add Number.add (.binary .add l r) g
    | .binary .sub l r =>
      if .binary .sub l r = g then scale 2 (.binary .sub l r)
      else if l = g then do sub (← scale 2 g) r
      else if r = g then .ok l
      else collect .add Number.add (.binary .sub l r) g
    | f => if f = g then scale 2 f else collect .add Number.add f g
termination_by f.pending g
decreasing_by
  all_goals
    subst_vars
    obtain rfl := eq_of_scale _h
    refine Nat.lt_of_lt_of_le Expr.pending_scale_lt ?_
    simp only [Expr.pending, Expr.isSum, Expr.size, if_true]
    omega

/-- A sum joins constants and coefficients only by sums. -/
theorem add_eq (f g : Expr) : add f g = .ok (f.add g) := by
  fun_induction add f g with
  | case1 => rw [Expr.add.eq_def, if_pos rfl]
  | case2 f nonzero => rw [Expr.add.eq_def, if_neg nonzero, if_pos rfl]
  | _ => simp_all [Expr.add, sub_eq, scale_eq, collect_add_eq]

end Sums

/-- The constructor of an operation, with its numbers checked. -/
def apply : Op → Expr → Expr → Outcome Expr
  | .add => add
  | .sub => sub
  | .mul => mul
  | .div => div
  | .pow => power

/-- No constructor meets a fault. -/
theorem apply_eq (op : Op) (f g : Expr) : apply op f g = .ok (op.apply f g) := by
  cases op with
  | add => exact add_eq f g
  | sub => exact sub_eq f g
  | mul => exact mul_eq f g
  | div => exact div_eq f g
  | pow => exact power_eq f g

end Fluxion.Checked
