import Mathlib.Order.Filter.AtTopBot.Basic
import Fluxion.Proofs.CheckedArithmetic
import Fluxion.Proofs.Differentiation
import Fluxion.Proofs.Soundness

/-!
# Constructors that call one another

Here are the rules of the constructors as they are tried, one after the other, with calls of any
constructor for any trees. A sum calls for the double of a term, which can be larger than the term
or unfold to a sum; a product calls for powers, and a power for products. Nothing in the rules says
that these calls come to an end, so `follow` answers them to a given depth only.

The constructors `add`, `sub`, `mul` and `power` group the same rules by the shapes of the operands
and recurse on trees alone. That is the order in which the calls end: a power of a constant calls
for nothing, a multiple by a constant only for such powers and for multiples of smaller trees
(`ends_scale`), a product with a pole only for multiples (`ends_mulPole`), a power for all of these
(`ends_powr`), and the other products for powers (`ends_mul`). From some depth on, the rules give
the tree of the constructor, whatever the operands are (`apply_terminates`).
-/

namespace Fluxion.Recursion
set_option autoImplicit false
open Filter
open Fluxion.Expr hiding add sub mul power collect

/-- Why following the rules gives no tree. -/
inductive Stop where
  /-- The depth was used up before the last rule. -/
  | depth
  | fault (cause : Fault)

/-- What following the rules comes to. -/
abbrev Attempt (α : Type) := Except Stop α

/-- A step on numbers. -/
def number {α : Type} (x : Outcome α) : Attempt α := x.mapError .fault

section Rules

/-! The rules of each constructor in the order in which they are tried; `call` answers the calls. -/

variable (call : Op → Expr → Expr → Attempt Expr)

/-- The last rules of a sum and of a difference. -/
def collect (op : Op) (merge : Number → Number → Outcome Number) (f g : Expr) : Attempt Expr := do
  let (c, t) := coefficient f
  let (d, u) := coefficient g
  if t = u then return ← call .mul (const (← number (Checked.join merge c d))) t
  return binary op f g

/-- The sum by its rules. -/
def add (f g : Expr) : Attempt Expr := do
  if f = const 0 then return g
  if g = const 0 then return f
  if let (const a, const b) := (f, g) then
    return const (← number (Checked.join Number.add a b))
  if f = g then return ← call .mul (const 2) f
  if let binary .add l r := f then
    if l = g then return ← call .add (← call .mul (const 2) g) r
    if r = g then return ← call .add (← call .mul (const 2) g) l
  if let binary .sub l r := f then
    if l = g then return ← call .sub (← call .mul (const 2) g) r
    if r = g then return l
  collect call .add Number.add f g

/-- The difference by its rules. -/
def sub (f g : Expr) : Attempt Expr := do
  if let (const a, const b) := (f, g) then
    return const (← number (Checked.join Number.sub a b))
  if g = const 0 then return f
  if f = g then return const 0
  if f = const 0 then return ← call .mul (const (-1)) g
  if let binary .add l r := f then
    if l = g then return r
    if r = g then return l
  if let binary .sub l r := f then
    if l = g then return ← call .mul (const (-1)) r
    if r = g then return ← call .sub l (← call .mul (const 2) g)
  collect call .sub Number.sub f g

/-- The last rules of a product. -/
def joinPowers (f g : Expr) : Attempt Expr := do
  if base f = base g then
    if let (const a, const b) := (exponent f, exponent g) then
      return ← call .pow (base f) (const (← number (Checked.join Number.add a b)))
  return binary .mul f g

/-- The rules of a product that look for quotients and multiples. -/
def mulTrees (f g : Expr) : Attempt Expr := do
  if let some a := over? f g then return a
  if let some a := over? g f then return a
  if let binary .div a b := g then return ← call .div (← call .mul f a) b
  if let binary .mul (const d) h := g then return ← call .mul (const d) (← call .mul f h)
  if let binary .mul (const c) h := f then return ← call .mul (const c) (← call .mul h g)
  joinPowers call f g

/-- The product of two different trees, of which only the first may be a constant if one is. -/
def mulOrdered (f g : Expr) : Attempt Expr := do
  if let const a := f then
    if a = 0 then return const 0
    if a = 1 then return g
    if let const b := g then return const (← number (Checked.join Number.mul a b))
    if let binary .mul (const b) h := g then
      return ← call .mul (const (← number (Checked.join Number.mul a b))) h
  mulTrees call f g

/-- The product by its rules. -/
def mul (f g : Expr) : Attempt Expr :=
  if f = g then call .pow f (const 2)
  else if g.isConst ∧ !f.isConst then mulOrdered call g f
  else mulOrdered call f g

/-- The power by its rules. -/
def power (f g : Expr) : Attempt Expr := do
  if g = const 0 then return const 1
  if g = const 1 ∨ f = const 1 then return f
  if let (const a, const b) := (f, g) then
    if b.den = 1 ∧ (a ≠ 0 ∨ 0 < b) then return const (← number (Checked.pow a b.num))
  if f = e then
    if let special .ln a := g then return a
    if let binary .mul (const c) (special .ln a) := g then return ← call .pow a (const c)
  if let (binary .pow u (const a), const b) := (f, g) then
    return ← call .pow u (const (← number (Checked.join Number.mul a b)))
  if let (binary .mul (const c) u, const r) := (f, g) then
    if r.den = 1 then return ← call .mul (← call .pow (const c) g) (← call .pow u g)
  return binary .pow f g

/-- One constructor by its rules. -/
def layer (op : Op) (f g : Expr) : Attempt Expr :=
  match op with
  | .add => add call f g
  | .sub => sub call f g
  | .mul => mul call f g
  | .div => number (Checked.div f g)
  | .pow => power call f g

end Rules

/-- The rules followed to a depth of calls. -/
def follow : Nat → Op → Expr → Expr → Attempt Expr
  | 0 => fun _ _ _ => .error .depth
  | n + 1 => layer (follow n)

/-- At every depth that is large enough, the attempt comes to the tree. -/
def Settles (x : Nat → Attempt Expr) (t : Expr) : Prop := ∀ᶠ n in atTop, x n = .ok t

/-- What does not ask for a depth settles at once. -/
theorem settles_ok (t : Expr) : Settles (fun _ => .ok t) t := by
  filter_upwards with n
  rfl

/-- One more depth does not unsettle a recursion. -/
theorem Settles.succ {x : Nat → Attempt Expr} {t : Expr} (h : Settles (fun n => x (n + 1)) t) :
    Settles x t := by
  obtain ⟨depth, h⟩ := eventually_atTop.1 h
  refine eventually_atTop.2 ⟨depth + 1, fun n large => ?_⟩
  obtain ⟨m, rfl⟩ := Nat.exists_eq_add_one_of_ne_zero (show n ≠ 0 by omega)
  exact h m (by omega)

/-- Two steps settle at the larger of their depths. -/
theorem Settles.bind {x : Nat → Attempt Expr} {k : Nat → Expr → Attempt Expr} {f t : Expr}
    (hx : Settles x f) (hk : Settles (fun n => k n f) t) : Settles (fun n => x n >>= k n) t := by
  filter_upwards [hx, hk] with n made rest
  rw [made]
  exact rest

/-- Following the rules of `op` comes to `t`. -/
def Ends (op : Op) (f g t : Expr) : Prop := Settles (fun n => follow n op f g) t

/-- A rule settles one depth below the recursion. -/
theorem Ends.of_layer {op : Op} {f g t : Expr}
    (h : Settles (fun n => layer (follow n) op f g) t) : Ends op f g t :=
  Settles.succ h

/-- A rule that calls for nothing. -/
theorem Ends.at_once {op : Op} {f g t : Expr} (h : ∀ call, layer call op f g = .ok t) :
    Ends op f g t := by
  apply Ends.of_layer
  filter_upwards with n
  exact h _

section Numbers

variable {α : Type}

@[simp] theorem number_ok (x : α) : number (.ok x) = .ok x := rfl

@[simp] theorem ok_bind {β : Type} (a : α) (k : α → Attempt β) : (.ok a >>= k) = k a := rfl

@[simp] theorem pure_eq_ok (a : α) : (pure a : Attempt α) = .ok a := rfl

end Numbers

/-- Factors that are no powers of one base stay apart. -/
theorem joinPowers_apart {call : Op → Expr → Expr → Attempt Expr} {f g : Expr}
    (apart : base f = base g → ∀ a b, exponent f = const a → exponent g ≠ const b) :
    joinPowers call f g = .ok (binary .mul f g) := by
  unfold joinPowers
  split
  · rename_i same
    split
    · rename_i a b h
      obtain ⟨ha, hb⟩ := Prod.mk.inj h
      exact absurd hb (apart same a b ha)
    · rfl
  · rfl

/-- The quotient asks for no other rule. -/
theorem ends_div (f g : Expr) : Ends .div f g (div f g) := by
  refine Ends.at_once fun call => ?_
  rw [layer, Checked.div_eq, number_ok]

/-- The power of constants asks for no other rule. -/
theorem ends_constPow (c r : Rat) : Ends .pow (const c) (const r) (constPow c r) := by
  refine Ends.at_once fun call => ?_
  fun_cases constPow c r with
  | case1 => simp_all [layer, power]
  | case2 => simp_all [layer, power]
  | case3 _ _ integer => simp_all [layer, power, Checked.pow_eq_ok integer.2]
  | case4 => simp_all [layer, power]

theorem ordered_consts (call : Op → Expr → Expr → Attempt Expr) (c d : Rat) :
    mulOrdered call (const c) (const d) = .ok (const (c * d)) := by
  by_cases zero : c = 0
  · simp [mulOrdered, zero]
  by_cases one : c = 1
  · simp [mulOrdered, one]
  · simp [mulOrdered, zero, one]

/-- A constant stands first in a product, whichever factor it was. -/
theorem ends_ordered {c : Rat} {g t : Expr} (varying : g.isConst = false)
    (h : Settles (fun n => mulOrdered (follow n) (const c) g) t) :
    Ends .mul (const c) g t ∧ Ends .mul g (const c) t := by
  have different : const c ≠ g := by
    rintro rfl
    contradiction
  constructor
  · apply Ends.of_layer
    filter_upwards [h] with n h
    rw [layer, mul, if_neg different, if_neg (by rw [varying]; simp), h]
  · apply Ends.of_layer
    filter_upwards [h] with n h
    rw [layer, mul, if_neg different.symm, if_pos (by rw [varying]; simp [isConst]), h]

/-- The product of constants is a number. -/
theorem ends_consts (c d : Rat) : Ends .mul (const c) (const d) (const (c * d)) := by
  apply Ends.of_layer
  filter_upwards [ends_constPow c 2] with n square
  by_cases same : c = d
  · subst same
    rw [layer, mul, if_pos rfl, square, constPow_two]
  · rw [layer, mul, if_neg (by simpa using same), if_neg (by simp [isConst]), ordered_consts]

/-- No rule takes the second factor apart or cancels it. -/
structure Untaken (f g : Expr) : Prop where
  different : f ≠ g
  varying : g.isConst = false
  notQuotient : ∀ a b, g ≠ binary .div a b
  notMultiple : ∀ d h, g ≠ binary .mul (const d) h
  notOver : over? g f = none

/-- Where nothing cancels, a coefficient is taken out of the left factor first. -/
theorem Untaken.mulTrees_multiple {call : Op → Expr → Expr → Attempt Expr} {c : Rat} {u g : Expr}
    (untaken : Untaken (binary .mul (const c) u) g) :
    mulTrees call (binary .mul (const c) u) g = call .mul u g >>= call .mul (const c) := by
  obtain ⟨-, -, notQuotient, notMultiple, notOver⟩ := untaken
  unfold mulTrees
  simp only [notOver, over?_eq_none notQuotient]

/-- Where nothing cancels and there is no coefficient, powers of one base are joined. -/
theorem Untaken.mulTrees_eq {call : Op → Expr → Expr → Attempt Expr} {f g : Expr}
    (untaken : Untaken f g) (plain : ∀ c u, f ≠ binary .mul (const c) u) :
    mulTrees call f g = joinPowers call f g := by
  obtain ⟨-, -, notQuotient, notMultiple, notOver⟩ := untaken
  unfold mulTrees
  simp only [notOver, over?_eq_none notQuotient]

/-- A varying tree is no constant. -/
theorem const_ne {g : Expr} (varying : ∀ b, g ≠ const b) (a : Rat) : const a ≠ g :=
  (varying a).symm

/-- A constant and a varying tree are powers of one base only if the tree is a surd. -/
theorem apart_of_const {c : Rat} {g : Expr} (varying : g.isConst = false)
    (notSurd : ∀ d k, g ≠ binary .pow (const d) (const k)) (same : base (const c) = base g)
    (b : Rat) : exponent g ≠ const b := by
  intro constant
  cases g with
  | const => contradiction
  | binary op l r =>
    cases op with
    | pow =>
      have surd : binary .pow l r = binary .pow (const c) (const b) := by
        rw [show const c = l from same, show r = const b from constant]
      exact notSurd c b surd
    | _ => cases same
  | _ => cases same

/-- A constant in front of a tree is merged into it, on whichever side it stood. -/
theorem ends_scale (c : Rat) (g : Expr) :
    Ends .mul (const c) g (scale c g) ∧ Ends .mul g (const c) (scale c g) := by
  fun_induction scale c g with
  | case1 c d =>
    refine ⟨ends_consts c d, ?_⟩
    rw [mul_comm]
    exact ends_consts d c
  | case4 c d h zero one ih =>
    apply ends_ordered rfl
    filter_upwards [ih.1] with n product
    simp [mulOrdered, zero, one, product]
  | case7 c a zero one =>
    apply ends_ordered rfl
    filter_upwards with n
    simp [mulOrdered, mulTrees, over?, zero, one]
  | case8 c a b zero one other ih =>
    apply ends_ordered rfl
    filter_upwards [ih.1, ends_div (scale c a) b] with n product quotient
    simp [mulOrdered, mulTrees, over?, zero, one, other, product, quotient]
  | case11 c k zero one =>
    apply ends_ordered rfl
    filter_upwards [ends_constPow c (1 + k)] with n power
    simp [mulOrdered, mulTrees, over?, zero, one, joinPowers, base, exponent, power]
  | case12 c d k zero one other =>
    apply ends_ordered rfl
    filter_upwards with n
    simp [mulOrdered, mulTrees, over?, zero, one, joinPowers, base, Ne.symm other]
  -- The coefficients zero and one are tested before the shape of the tree.
  | case13 g notConst | case14 g notConst =>
    apply ends_ordered (by cases g <;> simp_all [isConst])
    filter_upwards with n
    simp [mulOrdered]
  | case15 c g notConst notMultiple notQuotient notSurd zero one =>
    have varying : g.isConst = false := by cases g <;> simp_all [isConst]
    apply ends_ordered varying
    filter_upwards with n
    have untaken : Untaken (const c) g :=
      { different := const_ne notConst c
        varying
        notQuotient
        notMultiple
        notOver := over?_eq_none (by simp) g }
    have plain : joinPowers (follow n) (const c) g = .ok (binary .mul (const c) g) :=
      joinPowers_apart fun same a b _ => apart_of_const varying notSurd same b
    simp [mulOrdered, zero, one, untaken.mulTrees_eq (by simp), plain]
  | _ =>
    apply ends_ordered rfl
    filter_upwards with n
    simp_all [mulOrdered]

/-- The product of different varying trees is the one with all its rules. -/
theorem layer_mul {call : Op → Expr → Expr → Attempt Expr} {f g : Expr} (different : f ≠ g)
    (hf : f.isConst = false) (hg : g.isConst = false) :
    layer call .mul f g = mulTrees call f g := by
  rw [layer, mul, if_neg different, if_neg (by rw [hg]; simp), mulOrdered]
  intro c constant
  rw [constant] at hf
  contradiction

/-- The right factor is taken apart until no rule for quotients and multiples is left. -/
theorem ends_mulInto {f : Expr} {plain : Expr → Expr} (varying : f.isConst = false)
    (joined : ∀ k, f = k ∨ Untaken f k → Ends .mul f k (plain k)) (g : Expr) :
    Ends .mul f g (mulInto f plain g) := by
  fun_induction mulInto f plain g with
  | case1 c => exact (ends_scale c f).2
  | case2 _ _ same | case6 _ _ same => exact joined _ (.inl same)
  | case3 a different =>
    refine Ends.at_once fun call => ?_
    simp [layer_mul different varying rfl, mulTrees, over?]
  | case4 a b different other x found =>
    refine Ends.at_once fun call => ?_
    obtain rfl := over?_eq_some found
    rw [layer_mul different varying rfl, mulTrees, found]
    simp [over?, other]
  | case5 a b different other notOver ih =>
    apply Ends.of_layer
    filter_upwards [ih, ends_div (mulInto f plain a) b] with n product quotient
    rw [layer_mul different varying rfl, mulTrees, notOver]
    simp [over?, other, product, quotient]
  | case7 d h different x found =>
    refine Ends.at_once fun call => ?_
    rw [layer_mul different varying rfl, mulTrees, found]
    simp [over?]
  | case8 d h different notOver ih =>
    apply Ends.of_layer
    filter_upwards [ih, (ends_scale d (mulInto f plain h)).1] with n product multiple
    rw [layer_mul different varying rfl, mulTrees, notOver]
    simp [over?, product, multiple]
  | case9 g notConst notQuotient notMultiple x found =>
    refine Ends.at_once fun call => ?_
    obtain rfl := over?_eq_some found
    have different : binary .div x g ≠ g := fun same => notQuotient x g same.symm
    have varying : g.isConst = false := by cases g <;> simp_all [isConst]
    rw [layer_mul different rfl varying, mulTrees, found, over?_eq_none notQuotient]
    all_goals simp_all
  | case10 g notConst notQuotient notMultiple notOver =>
    by_cases same : f = g
    · exact joined g (.inl same)
    · have varying : g.isConst = false := by cases g <;> simp_all [isConst]
      exact joined g (.inr ⟨same, varying, notQuotient, notMultiple, notOver⟩)

/-- The exponents of a power of a power are multiplied, and the rule is asked again. -/
theorem ends_nested {u t : Expr} {c r : Rat} (zero : r ≠ 0) (one : r ≠ 1)
    (h : Ends .pow u (const (c * r)) t) : Ends .pow (binary .pow u (const c)) (const r) t := by
  apply Ends.of_layer
  filter_upwards [h] with n h
  simp [layer, power, zero, one, h]

/-- A pole is joined to what no rule takes apart as powers of one base are joined. -/
theorem ends_joinPole {r : Rat} {g : Expr} (varying : g.isConst = false) :
    Settles (fun n => joinPowers (follow n) (pole r) g) (joinPole r g) := by
  fun_cases joinPole r g with
  | case1 k =>
    filter_upwards [ends_constPow 0 (r + k)] with n merged
    simp [joinPowers, pole, base, exponent, merged]
  | case2 d k other =>
    filter_upwards with n
    simp [joinPowers, pole, base, Ne.symm other]
  | case3 _ notSurd =>
    filter_upwards with n
    exact joinPowers_apart fun same _ b _ => apart_of_const varying notSurd same b

/-- A power of zero is multiplied by recursion on the other factor. -/
theorem ends_mulPole (r : Rat) (g : Expr) : Ends .mul (pole r) g (mulPole r g) := by
  refine ends_mulInto rfl (fun k cases => ?_) g
  apply Ends.of_layer
  rcases cases with rfl | untaken
  · have square : Ends .pow (pole r) (const 2) (constPow 0 (r * 2)) :=
      ends_nested (by decide) (by decide) (ends_constPow 0 (r * 2))
    filter_upwards [square] with n square
    rw [layer, mul, if_pos rfl, square, mul_two, pole, joinPole, if_pos rfl]
  · filter_upwards [ends_joinPole untaken.varying] with n joined
    rw [layer_mul untaken.different rfl untaken.varying, untaken.mulTrees_eq (by simp [pole]),
      joined]

/-- A power with a constant exponent, by recursion on the base. -/
theorem ends_powr (f : Expr) (r : Rat) : Ends .pow f (const r) (powr f r) := by
  fun_induction powr f r with
  | case1 c r => exact ends_constPow c r
  | case2 | case3 | case5 | case6 | case10 | case11 =>
    refine Ends.at_once fun call => ?_
    simp_all [layer, power]
  | case4 u c r zero one ih => exact ends_nested zero one ih
  | case7 c u r zero one integer q folded ih =>
    apply Ends.of_layer
    filter_upwards [ends_constPow c r, ih, (ends_scale q (powr u r)).1] with n front power product
    simp [layer, Recursion.power, zero, one, integer, front, folded, power, product]
  | case8 c u r zero one integer kept ih =>
    -- The two powers are multiplied by the rules of a product, as zero to the power `r` is kept.
    obtain ⟨rfl, front⟩ := constPow_eq_pole integer kept
    apply Ends.of_layer
    filter_upwards [ends_constPow 0 r, ih, ends_mulPole r (powr u r)] with n base power product
    simp [layer, Recursion.power, zero, one, integer, base, front, power, product]
  | case9 c u r zero one broken =>
    refine Ends.at_once fun call => ?_
    simp [layer, power, zero, one, broken]
  | case12 f r notConst notPower notMultiple zero one =>
    refine Ends.at_once fun call => ?_
    have notOne : f ≠ const 1 := notConst 1
    simp [layer, power, zero, one, notOne]
    repeat' split
    all_goals simp_all

/-- A tree times itself is a power. -/
theorem ends_square (f : Expr) : Ends .mul f f (powr f 2) := by
  apply Ends.of_layer
  filter_upwards [ends_powr f 2] with n square
  rw [layer, mul, if_pos rfl, square]

/-- Powers of one base ask for a power once. -/
theorem ends_joinPowers {f g : Expr} (different : f ≠ g) :
    Settles (fun n => joinPowers (follow n) f g) (mergePowers f g) := by
  fun_cases mergePowers f g with
  | case1 same => exact absurd same different
  | case2 _ same a b hb ha =>
    filter_upwards [ends_powr (base f) (a + b)] with n merged
    simp [joinPowers, ← same, ha, hb, merged]
  | case3 _ _ notConsts =>
    filter_upwards with n
    exact joinPowers_apart fun _ a b ha hb => notConsts a b ha hb
  | case4 _ other =>
    filter_upwards with n
    exact joinPowers_apart fun same => absurd same other

/-- A product, by recursion on the left factor and then on the right one. -/
theorem ends_mul (f g : Expr) : Ends .mul f g (Expr.mul f g) := by
  fun_induction Expr.mul f g with
  | case1 c g => exact (ends_scale c g).1
  | case2 c h g ih =>
    refine ends_mulInto rfl (fun k cases => ?_) g
    split
    · rename_i same
      subst same
      exact ends_square _
    · rename_i different
      have untaken := cases.resolve_left different
      apply Ends.of_layer
      filter_upwards [ih k, (ends_scale c (Expr.mul h k)).1] with n product multiple
      rw [layer_mul different rfl untaken.varying, untaken.mulTrees_multiple, product, ok_bind,
        multiple]
  | case3 f g notConst notMultiple =>
    have varying : f.isConst = false := by cases f <;> simp_all [isConst]
    refine ends_mulInto varying (fun k cases => ?_) g
    rcases cases with rfl | untaken
    · rw [mergePowers, if_pos rfl]
      exact ends_square f
    · apply Ends.of_layer
      filter_upwards [ends_joinPowers untaken.different] with n joined
      rw [layer_mul untaken.different varying untaken.varying, untaken.mulTrees_eq notMultiple,
        joined]

/-- A power with a varying exponent asks for a power with a constant one at most. -/
theorem ends_power (f g : Expr) : Ends .pow f g (Expr.power f g) := by
  fun_cases Expr.power f g with
  | case1 r => exact ends_powr f r
  | case2 g one notConst =>
    have notZero : g ≠ const 0 := notConst 0
    refine Ends.at_once fun call => ?_
    simp [layer, power, one, notZero]
  | case3 _ base a =>
    refine Ends.at_once fun call => ?_
    simp [layer, power, base]
  | case4 _ base c a =>
    apply Ends.of_layer
    filter_upwards [ends_powr a c] with n power
    simp [layer, Recursion.power, base, power]
  | _ =>
    refine Ends.at_once fun call => ?_
    simp_all [layer, power]

/-- Where no other rule applies, two multiples of one tree are collected. -/
theorem ends_collect {op : Op} {merge : Number → Number → Outcome Number}
    {merge' : Rat → Rat → Rat} {f g : Expr}
    (merged : ∀ a b, Checked.join merge a b = .ok (merge' a b))
    (plain : ∀ call, layer call op f g = collect call op merge f g) :
    Ends op f g (Expr.collect op merge' f g) := by
  have alike := (ends_scale (merge' (coefficient f).1 (coefficient g).1) (coefficient f).2).1
  apply Ends.of_layer
  filter_upwards [alike] with n multiple
  rw [plain]
  unfold collect Expr.collect
  simp only [merged, number_ok, ok_bind, pure_eq_ok]
  split
  · rw [multiple]
  · rfl

/-- A difference, by the recursion of the constructor. -/
theorem ends_sub (f g : Expr) : Ends .sub f g (Expr.sub f g) := by
  -- Each branch of the definition is one rule, and the rules before it do not apply there.
  rw [Expr.sub.eq_def]
  split
  · rename_i zero
    refine Ends.at_once fun call => ?_
    cases f <;> simp [layer, sub, zero]
  split
  · refine Ends.at_once fun call => ?_
    cases g <;> simp_all [layer, sub]
  split
  · split
    · refine Ends.at_once fun call => ?_
      simp_all [layer, sub]
    split
    · apply Ends.of_layer
      filter_upwards [(ends_scale (-1) g).1] with n multiple
      simp_all [layer, sub, neg]
    · refine ends_collect (fun _ _ => Checked.join_sub) fun call => ?_
      simp_all [layer, sub]
  · split
    · refine Ends.at_once fun call => ?_
      simp_all [layer, sub]
    split
    · refine Ends.at_once fun call => ?_
      simp_all [layer, sub]
    · refine ends_collect (fun _ _ => Checked.join_sub) fun call => ?_
      simp_all [layer, sub]
  · rename_i l r _
    split
    · apply Ends.of_layer
      filter_upwards [(ends_scale (-1) r).1] with n multiple
      simp_all [layer, sub, neg]
    split
    · apply Ends.of_layer
      filter_upwards [(ends_scale 2 g).1, ends_sub l (scale 2 g)] with n multiple difference
      simp_all [layer, sub]
    · refine ends_collect (fun _ _ => Checked.join_sub) fun call => ?_
      simp_all [layer, sub]
  · refine ends_collect (fun _ _ => Checked.join_sub) fun call => ?_
    simp_all [layer, sub]
termination_by f.size
decreasing_by
  subst_vars
  simp only [size]
  omega

theorem ends_add (f g : Expr) : Ends .add f g (Expr.add f g) := by
  rw [Expr.add.eq_def]
  split
  · refine Ends.at_once fun call => ?_
    simp_all [layer, add]
  split
  · refine Ends.at_once fun call => ?_
    simp_all [layer, add]
  split
  · split
    · refine Ends.at_once fun call => ?_
      simp_all [layer, add]
    · refine ends_collect (fun _ _ => Checked.join_add) fun call => ?_
      simp_all [layer, add, const_ne]
  · rename_i l r _
    split
    · rename_i same
      apply Ends.of_layer
      filter_upwards [(ends_scale 2 (binary .add l r)).1] with n multiple
      simp_all [layer, add]
    split
    · apply Ends.of_layer
      -- The doubled summand is smaller than the sum it came from, which ends the recursion.
      filter_upwards [(ends_scale 2 g).1, ends_add (scale 2 g) r] with n multiple sum
      simp_all [layer, add]
    split
    · apply Ends.of_layer
      filter_upwards [(ends_scale 2 g).1, ends_add (scale 2 g) l] with n multiple sum
      simp_all [layer, add]
    · refine ends_collect (fun _ _ => Checked.join_add) fun call => ?_
      simp_all [layer, add]
  · rename_i l r _
    split
    · apply Ends.of_layer
      filter_upwards [(ends_scale 2 (binary .sub l r)).1] with n multiple
      simp_all [layer, add]
    split
    · apply Ends.of_layer
      filter_upwards [(ends_scale 2 g).1, ends_sub (scale 2 g) r] with n multiple difference
      simp_all [layer, add]
    split
    · refine Ends.at_once fun call => ?_
      simp_all [layer, add]
    · refine ends_collect (fun _ _ => Checked.join_add) fun call => ?_
      simp_all [layer, add]
  · split
    · apply Ends.of_layer
      filter_upwards [(ends_scale 2 f).1] with n multiple
      simp_all [layer, add]
    · refine ends_collect (fun _ _ => Checked.join_add) fun call => ?_
      simp_all [layer, add]
termination_by pending f g
decreasing_by
  all_goals
    subst_vars
    refine Nat.lt_of_lt_of_le pending_scale_lt ?_
    simp only [pending, isSum, size, if_true]
    omega

/-- Following the rules of a constructor to a depth that is large enough gives its tree. -/
theorem ends_apply (op : Op) (f g : Expr) : Ends op f g (op.apply f g) := by
  cases op with
  | add => exact ends_add f g
  | sub => exact ends_sub f g
  | mul => exact ends_mul f g
  | div => exact ends_div f g
  | pow => exact ends_power f g

/-- The rules of each constructor come to a tree, whatever the two operands are: no call of the
constructors for one another goes on for ever, and no number in it is refused. -/
theorem apply_terminates (op : Op) (f g : Expr) :
    (∃ depth, ∀ n, depth ≤ n → follow n op f g = .ok (op.apply f g)) ∧
      (f.Finished → g.Finished → (op.apply f g).Finished) :=
  ⟨eventually_atTop.1 (ends_apply op f g), over_apply op⟩

/-- The square of a root of `0*x`, where the power of zero cannot be folded. -/
theorem apply_terminates_pole :
    let root := binary .pow (binary .mul (const 0) (var 0)) (const (-1 / 2))
    let inverse := binary .pow (var 0) (const (-1))
    root.Finished ∧ (const 2).Finished ∧
      (∃ depth, ∀ n, depth ≤ n →
        follow n .pow root (const 2) = .ok (binary .mul (pole (-1)) inverse)) ∧
      (binary .mul (pole (-1)) inverse).Finished := by
  intro root inverse
  have finished : root.Finished := ⟨⟨trivial, ⟨.x, rfl⟩⟩, trivial⟩
  have square : Op.pow.apply root (const 2) = binary .mul (pole (-1)) inverse := by decide +kernel
  obtain ⟨terminates, keeps⟩ := apply_terminates .pow root (const 2)
  rw [square] at terminates keeps
  exact ⟨finished, trivial, terminates, keeps finished trivial⟩

end Fluxion.Recursion
