import Fluxion.Proofs.Differentiation
import Fluxion.Proofs.Recursion

/-!
# Differentiation that calls itself

Every rule of differentiation asks for the derivatives of operands, but one: a power `u^w` with a
varying exponent is put over the base `e`, and the rule asks for the derivative of what the
constructors make of that. It is a tree of their own, in general larger than the power, and it may
be a part of the power or another power (`Asks`). Each time the rule is taken, a power over another
base than `e` is gone, and the constructors bring none back: the number of these powers is a tally
(`tally_varyingPowers`). So that number bounds how often the rule is taken below a tree
(`Reaches.le`), and following all rules to a depth that is large enough gives the derivative
(`derivative_terminates`).
-/

namespace Fluxion.Recursion
set_option autoImplicit false
open Filter hiding pi
open Fluxion.Expr hiding add sub mul power collect outer derivative

section Rules

variable (call : Op → Expr → Expr → Attempt Expr)

/-- The derivative of a named function by its rule. -/
def outer (k : Kind) (a : Expr) : Attempt Expr := do
  match k with
  | .sin => return special .cos a
  | .cos => call .mul (const (-1)) (special .sin a)
  | .tan => call .pow (special .sec a) (const 2)
  | .cot => call .mul (const (-1)) (← call .pow (special .csc a) (const 2))
  | .sec => call .mul (special .sec a) (special .tan a)
  | .csc => call .mul (const (-1)) (← call .mul (special .csc a) (special .cot a))
  | .asin =>
    let square ← call .pow a (const 2)
    call .div (const 1) (← call .pow (← call .sub (const 1) square) (const (1 / 2)))
  | .acos =>
    let square ← call .pow a (const 2)
    call .div (const (-1)) (← call .pow (← call .sub (const 1) square) (const (1 / 2)))
  | .atan => call .div (const 1) (← call .add (const 1) (← call .pow a (const 2)))
  | .sinh => return special .cosh a
  | .cosh => return special .sinh a
  | .tanh => call .pow (special .sech a) (const 2)
  | .coth => call .mul (const (-1)) (← call .pow (special .csch a) (const 2))
  | .sech => call .mul (const (-1)) (← call .mul (special .sech a) (special .tanh a))
  | .csch => call .mul (const (-1)) (← call .mul (special .csch a) (special .coth a))
  | .asinh =>
    let square ← call .pow a (const 2)
    call .div (const 1) (← call .pow (← call .add square (const 1)) (const (1 / 2)))
  | .acosh =>
    let square ← call .pow a (const 2)
    call .div (const 1) (← call .pow (← call .sub square (const 1)) (const (1 / 2)))
  | .atanh => call .div (const 1) (← call .sub (const 1) (← call .pow a (const 2)))
  | .abs => call .div a (special .abs a)
  | .ln => call .div (const 1) a

/-- The derivative of a tree by its rule; `self` answers the calls for other trees. -/
def derivative (along : Axis) (self : Expr → Attempt Expr) (f : Expr) : Attempt Expr := do
  match f with
  | var i =>
    match Axis.ofPosition? i with
    | some a => return const (if a = along then 1 else 0)
    | none => .error (.fault .noPosition)
  | e | pi | const _ => return const 0
  | binary .add f g => call .add (← self f) (← self g)
  | binary .sub f g => call .sub (← self f) (← self g)
  | binary .mul f g => call .add (← call .mul (← self f) g) (← call .mul f (← self g))
  | binary .div f g =>
    call .div (← call .sub (← call .mul (← self f) g) (← call .mul f (← self g)))
      (← call .pow g (const 2))
  | binary .pow f g =>
    if let const c := g then
      if isVariable along f then
        return ← call .mul g (← call .pow f (const (← number (Checked.join Number.sub c 1))))
      return ← call .mul (← call .mul (← self f) g)
        (← call .pow f (const (← number (Checked.join Number.sub c 1))))
    if f = e then return ← call .mul (← self g) (binary .pow f g)
    self (← call .pow e (← call .mul g (special .ln f)))
  | comp _ _ => .error (.fault (.tree .openCall))
  | special k a => call .mul (← self a) (← outer call k a)

end Rules

/-- The rules of differentiation, and those of the constructors, followed to a depth of calls. -/
def descend (along : Axis) : Nat → Expr → Attempt Expr
  | 0 => fun _ => .error .depth
  | n + 1 => derivative (follow n) along (descend along n)

theorem settles_outer (k : Kind) (a : Expr) :
    Settles (fun n => outer (follow n) k a) (Expr.outer k a) := by
  have square := ends_powr a 2
  have opposite (f : Expr) : Ends .mul (const (-1)) f (neg f) := (ends_scale (-1) f).1
  cases k with
  | sin | sinh | cosh => exact settles_ok _
  | cos => exact opposite _
  | tan | tanh => exact ends_powr _ 2
  | cot | coth => exact .bind (ends_powr _ 2) (opposite _)
  | sec => exact ends_mul _ _
  | csc | sech | csch => exact .bind (ends_mul _ _) (opposite _)
  | asin | acos =>
    exact .bind square (.bind (ends_sub _ _) (.bind (ends_powr _ (1 / 2)) (ends_div _ _)))
  | asinh =>
    exact .bind square (.bind (ends_add _ _) (.bind (ends_powr _ (1 / 2)) (ends_div _ _)))
  | acosh =>
    exact .bind square (.bind (ends_sub _ _) (.bind (ends_powr _ (1 / 2)) (ends_div _ _)))
  | atan => exact .bind square (.bind (ends_add _ _) (ends_div _ _))
  | atanh => exact .bind square (.bind (ends_sub _ _) (ends_div _ _))
  | abs | ln => exact ends_div _ _

section Powers

variable {call : Op → Expr → Expr → Attempt Expr} {self : Expr → Attempt Expr} {along : Axis}
variable {f g : Expr}

theorem derivative_pow_const (c : Rat) :
    derivative call along self (binary .pow f (const c)) =
      if isVariable along f then call .pow f (const (c - 1)) >>= call .mul (const c)
      else (do
        let df ← self f
        let multiple ← call .mul df (const c)
        let power ← call .pow f (const (c - 1))
        call .mul multiple power) := by
  split <;> simp [derivative, *]

theorem derivative_pow_varying (varying : g.isConst = false) :
    derivative call along self (binary .pow f g) =
      if f = e then self g >>= fun dg => call .mul dg (binary .pow f g)
      else (do
        let exponent ← call .mul g (special .ln f)
        let power ← call .pow e exponent
        self power) := by
  cases g <;> simp_all [derivative, isConst]

end Powers

/-- Following the rules of differentiation gives the derivative, where there is one. -/
theorem settles_derivative {along : Axis} {f d : Expr} (hd : f.derivative along = .ok d) :
    Settles (fun n => descend along n f) d := by
  -- The recursion of the derivative itself, with a depth for each constructor that it calls.
  induction f using derivative.induct along generalizing d with
  | case1 i a h =>
    simp only [Expr.derivative, h] at hd
    cases hd
    apply Settles.succ
    filter_upwards with n
    simp [descend, derivative, h]
  | case2 i h => simp [Expr.derivative, h] at hd
  | case3 | case4 | case5 =>
    simp only [Expr.derivative] at hd
    cases hd
    exact .succ (settles_ok _)
  | case6 f g ihf ihg =>
    simp only [Expr.derivative, bind_eq_ok] at hd
    obtain ⟨df, hf, dg, hg, hd⟩ := hd
    cases hd
    exact .succ (.bind (ihf hf) (.bind (ihg hg) (ends_add df dg)))
  | case7 f g ihf ihg =>
    simp only [Expr.derivative, bind_eq_ok] at hd
    obtain ⟨df, hf, dg, hg, hd⟩ := hd
    cases hd
    exact .succ (.bind (ihf hf) (.bind (ihg hg) (ends_sub df dg)))
  | case8 f g ihf ihg =>
    simp only [Expr.derivative, bind_eq_ok] at hd
    obtain ⟨df, hf, dg, hg, hd⟩ := hd
    cases hd
    exact .succ (.bind (ihf hf) (.bind (ends_mul df g) (.bind (ihg hg) (.bind (ends_mul f dg)
      (ends_add _ _)))))
  | case9 f g ihf ihg =>
    simp only [Expr.derivative, bind_eq_ok] at hd
    obtain ⟨df, hf, dg, hg, hd⟩ := hd
    cases hd
    exact .succ (.bind (ihf hf) (.bind (ends_mul df g) (.bind (ihg hg) (.bind (ends_mul f dg)
      (.bind (ends_sub _ _) (.bind (ends_powr g 2) (ends_div _ _)))))))
  | case10 f g c hc self =>
    obtain rfl := eq_const_of_constValue? hc
    rw [Expr.derivative_pow_const, if_pos self] at hd
    cases hd
    apply Settles.succ
    simp only [descend, derivative_pow_const, if_pos self]
    exact .bind (ends_powr f (c - 1)) (ends_mul _ _)
  | case11 f g c hc other ih =>
    obtain rfl := eq_const_of_constValue? hc
    rw [Expr.derivative_pow_const, if_neg other, bind_eq_ok] at hd
    obtain ⟨df, hf, hd⟩ := hd
    cases hd
    apply Settles.succ
    simp only [descend, derivative_pow_const, if_neg other]
    exact .bind (ih hf) (.bind (ends_mul df (const c)) (.bind (ends_powr f (c - 1)) (ends_mul _ _)))
  | case12 g varying ih =>
    rw [Expr.derivative_pow_varying varying, if_pos rfl, bind_eq_ok] at hd
    obtain ⟨dg, hg, hd⟩ := hd
    cases hd
    apply Settles.succ
    simp only [descend, derivative_pow_varying (constValue?_eq_none_iff.1 varying), if_true]
    exact .bind (ih hg) (ends_mul _ _)
  | case13 f g varying other ih =>
    rw [Expr.derivative_pow_varying varying, if_neg other] at hd
    apply Settles.succ
    simp only [descend, derivative_pow_varying (constValue?_eq_none_iff.1 varying), if_neg other]
    exact .bind (ends_mul g (special .ln f)) (.bind (ends_power e _) (ih hd))
  | case14 => simp [Expr.derivative] at hd
  | case15 k a ih =>
    simp only [Expr.derivative, bind_eq_ok] at hd
    obtain ⟨da, ha, hd⟩ := hd
    cases hd
    exact .succ (.bind (ih ha) (.bind (settles_outer k a) (ends_mul _ _)))

/-- The rule for the derivative of `f` asks for that of `g`, and puts `m` powers over the base `e`
for it. -/
inductive Asks : Expr → Nat → Expr → Prop where
  | lhs (op : Op) (l r : Expr) : Asks (binary op l r) 0 l
  | rhs (op : Op) (l r : Expr) : Asks (binary op l r) 0 r
  | arg (k : Kind) (a : Expr) : Asks (special k a) 0 a
  | overBaseE {f g : Expr} (varying : g.isConst = false) (other : f ≠ e) :
      Asks (binary .pow f g) 1 (Expr.power e (Expr.mul g (special .ln f)))

/-- The derivative of `f` comes to ask for that of `g`, after it put `m` powers over the base
`e`. -/
inductive Reaches (f : Expr) : Nat → Expr → Prop where
  | self : Reaches f 0 f
  | step {m k : Nat} {g h : Expr} : Reaches f m g → Asks g k h → Reaches f (m + k) h

/-- The number of powers that are put over the base `e`. -/
def varyingPowers : Expr → Nat
  | var _ | e | pi | const _ => 0
  | binary op l r =>
    varyingPowers l + varyingPowers r +
      if op = .pow ∧ l ≠ e ∧ r.isConst = false then 1 else 0
  | comp l r => varyingPowers l + varyingPowers r
  | special _ a => varyingPowers a

theorem tally_varyingPowers : Tally 0 0 varyingPowers where
  least _ := Nat.zero_le _
  const _ := rfl
  sum l r := by simp [varyingPowers]
  difference l r := by simp [varyingPowers]
  quotient l r := by simp [varyingPowers]
  product _ r := by simp [varyingPowers]
  zeroMultiple r := by simp [varyingPowers]
  constPower u c := by simp [varyingPowers, isConst]
  arg k a := Nat.le_refl _

/-- The rule asks for no other derivatives: other answers for other trees make no difference. -/
theorem derivative_congr {call : Op → Expr → Expr → Attempt Expr}
    (answers : ∀ op f g, call op f g = .ok (op.apply f g)) {along : Axis} {f : Expr}
    {self other : Expr → Attempt Expr} (agree : ∀ m g, Asks f m g → self g = other g) :
    derivative call along self f = derivative call along other f := by
  cases f with
  | var | e | pi | const | comp => rfl
  | binary op l r =>
    have left := agree 0 l (.lhs op l r)
    have right := agree 0 r (.rhs op l r)
    cases op with
    | add | sub | mul | div => simp only [derivative, left, right]
    | pow =>
      cases varying : r.constValue? with
      | some c =>
        obtain rfl := eq_const_of_constValue? varying
        rw [derivative_pow_const, derivative_pow_const, left]
      | none =>
        have varying := constValue?_eq_none_iff.1 varying
        rw [derivative_pow_varying varying, derivative_pow_varying varying, right]
        split
        · rfl
        · rename_i base
          have folded := agree 1 _ (.overBaseE varying base)
          simp only [answers, ok_bind, Op.apply, folded]
  | special k a => simp only [derivative, agree 0 a (.arg k a)]

/-- The constructors bring back no power that was put over the base `e`. -/
theorem Asks.le {f g : Expr} {m : Nat} (h : Asks f m g) :
    m + varyingPowers g ≤ varyingPowers f := by
  cases h with
  | lhs | rhs | arg =>
    simp only [varyingPowers]
    omega
  | @overBaseE f g varying other =>
    have product := tally_varyingPowers.mul g (special .ln f)
    have power : varyingPowers (Expr.power e (Expr.mul g (special .ln f))) ≤
        varyingPowers (Expr.mul g (special .ln f)) :=
      tally_varyingPowers.power (by simp [varyingPowers]) (by simp [varyingPowers])
    have counted : varyingPowers (binary .pow f g) = varyingPowers f + varyingPowers g + 1 := by
      simp [varyingPowers, varying, other]
    have logarithm : varyingPowers (special .ln f) = varyingPowers f := rfl
    omega

theorem Reaches.le {f g : Expr} {m : Nat} (h : Reaches f m g) :
    m + varyingPowers g ≤ varyingPowers f := by
  induction h with
  | self => omega
  | step _ asks ih =>
    have := asks.le
    omega

/-- Differentiation of a finished tree comes to a finished tree. Below the tree, powers are put over
the base `e` at most as often as it has powers with varying exponents over other bases, whatever
the constructors make of them. -/
theorem derivative_terminates {f : Expr} (hf : f.Finished) (along : Axis) :
    (∃ d, f.derivative along = .ok d ∧ d.Finished ∧
      ∃ depth, ∀ n, depth ≤ n → descend along n f = .ok d) ∧
    ∀ m g, Reaches f m g → m ≤ varyingPowers f := by
  constructor
  · obtain ⟨d, hd⟩ := exists_derivative along hf
    refine ⟨d, hd, (stable_over _).derivative hf hd, ?_⟩
    exact eventually_atTop.1 (settles_derivative hd)
  · intro m g reached
    exact Nat.le_trans (Nat.le_add_right ..) reached.le

/-- The power `(x^x)^(0*y)`: put over the base `e`, it is folded to the constant one. -/
theorem derivative_terminates_folded :
    let f := binary .pow (binary .pow (var 0) (var 0)) (binary .mul (const 0) (var 1))
    f.Finished ∧ Reaches f 1 (const 1) ∧ (∀ m g, Reaches f m g → m ≤ 2) ∧
      ∃ depth, ∀ n, depth ≤ n → descend .x n f = .ok (const 0) := by
  intro f
  have finished : f.Finished := ⟨⟨⟨.x, rfl⟩, ⟨.x, rfl⟩⟩, trivial, ⟨.y, rfl⟩⟩
  have folded : Expr.power e (Expr.mul (binary .mul (const 0) (var 1))
      (special .ln (binary .pow (var 0) (var 0)))) = const 1 := by decide +kernel
  have asked : Asks f 1 (const 1) := by
    rw [← folded]
    exact .overBaseE rfl (by decide)
  obtain ⟨⟨d, hd, -, terminates⟩, within⟩ := derivative_terminates finished .x
  have counted : varyingPowers f = 2 := by decide +kernel
  rw [counted] at within
  have zero : f.derivative .x = .ok (const 0) := by
    rw [Expr.derivative_pow_varying rfl, if_neg (by decide), folded, Expr.derivative]
  rw [hd] at zero
  cases zero
  exact ⟨finished, .step .self asked, within, terminates⟩

end Fluxion.Recursion
