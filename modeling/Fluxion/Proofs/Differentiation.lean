import Fluxion.Proofs.Canonical

/-!
# The rules of differentiation

`Differentiates along f d` lists the rules by which the derivative of a tree is assembled, one for
each kind of node; `derivative_rules` says that `derivative` follows them. Facts about derivatives
are proved by induction on the rules.

A property of trees is *stable* when the constructors keep it and every tree hands it on to its
operands. The derivative is assembled by the constructors from constants and from pieces of the
tree, so it keeps what is stable (`Stable.derivative`). Two properties of this kind are being
canonical and being over a set of variables, with no unresolved call (`Over S`). A tree over the
variables of the axes is *finished*, and has a derivative along every axis (`exists_derivative`).
-/

namespace Fluxion
set_option autoImplicit false

/-- A computation in two steps succeeds when both steps do. -/
theorem bind_eq_ok {ε α β : Type} {x : Except ε α} {k : α → Except ε β} {b : β} :
    (x >>= k) = .ok b ↔ ∃ a, x = .ok a ∧ k a = .ok b := by
  cases x with
  | error cause =>
    constructor
    · intro h
      cases h
    · rintro ⟨a, h, -⟩
      cases h
  | ok a =>
    constructor
    · intro h
      exact ⟨a, rfl, h⟩
    · rintro ⟨a', h, hk⟩
      cases h
      exact hk

/-- Each of the positions from the front names an axis. -/
theorem Axis.exists_of_lt {i : Int} (lower : 0 ≤ i) (upper : i < 3) :
    ∃ a : Axis, i = a.index ∧ Axis.ofPosition? i = some a := by
  obtain rfl | rfl | rfl : i = 0 ∨ i = 1 ∨ i = 2 := by omega
  · exact ⟨.x, rfl, rfl⟩
  · exact ⟨.y, rfl, rfl⟩
  · exact ⟨.z, rfl, rfl⟩

namespace Expr

/-- The tree `d` is assembled from `f` by the rules of differentiation along an axis. -/
inductive Differentiates (along : Axis) : Expr → Expr → Prop where
  | var {i : Int} {a : Axis} (h : Axis.ofPosition? i = some a) :
      Differentiates along (var i) (const (if a = along then 1 else 0))
  | e : Differentiates along e (const 0)
  | pi : Differentiates along pi (const 0)
  | const (c : Rat) : Differentiates along (const c) (const 0)
  | add {f g df dg : Expr} : Differentiates along f df → Differentiates along g dg →
      Differentiates along (binary .add f g) (add df dg)
  | sub {f g df dg : Expr} : Differentiates along f df → Differentiates along g dg →
      Differentiates along (binary .sub f g) (sub df dg)
  | mul {f g df dg : Expr} : Differentiates along f df → Differentiates along g dg →
      Differentiates along (binary .mul f g) (add (mul df g) (mul f dg))
  | div {f g df dg : Expr} : Differentiates along f df → Differentiates along g dg →
      Differentiates along (binary .div f g) (div (sub (mul df g) (mul f dg)) (powr g 2))
  | powVariable {f : Expr} (c : Rat) (h : f.isVariable along = true) :
      Differentiates along (binary .pow f (const c)) (mul (const c) (powr f (c - 1)))
  | powConst {f df : Expr} (c : Rat) : Differentiates along f df →
      Differentiates along (binary .pow f (const c)) (mul (mul df (const c)) (powr f (c - 1)))
  | powE {g dg : Expr} (varying : g.isConst = false) : Differentiates along g dg →
      Differentiates along (binary .pow e g) (mul dg (binary .pow e g))
  | pow {f g d : Expr} (varying : g.isConst = false) (h : f ≠ .e) :
      Differentiates along (power .e (mul g (special .ln f))) d →
      Differentiates along (binary .pow f g) d
  | special {a da : Expr} (k : Kind) : Differentiates along a da →
      Differentiates along (special k a) (mul da (outer k a))

theorem eq_const_of_constValue? {g : Expr} {c : Rat} (h : g.constValue? = some c) :
    g = const c := by
  cases g <;> simp_all [constValue?]

theorem constValue?_eq_none_iff {g : Expr} : g.constValue? = none ↔ g.isConst = false := by
  cases g <;> simp [constValue?, isConst]

section Equations

variable {along : Axis} {f g : Expr}

/-- The power rule for a constant exponent. -/
theorem derivative_pow_const (c : Rat) :
    derivative along (binary .pow f (const c)) =
      if isVariable along f then .ok (mul (const c) (powr f (c - 1)))
      else do
        let df ← derivative along f
        return mul (mul df (const c)) (powr f (c - 1)) := by
  rw [derivative]
  rfl

/-- A power with a varying exponent is differentiated as a power of `e`. -/
theorem derivative_pow_varying (varying : g.constValue? = none) :
    derivative along (binary .pow f g) =
      if f = e then do
        let dg ← derivative along g
        return mul dg (binary .pow f g)
      else derivative along (power e (mul g (special .ln f))) := by
  rw [derivative]
  split
  · simp_all
  · rfl

/-- The power rule at the square of `x`. -/
theorem derivative_square :
    derivative .x (binary .pow (var 0) (const 2)) = .ok (binary .mul (const 2) (var 0)) := by
  have once : (2 - 1 : Rat) = 1 := by decide +kernel
  rw [derivative_pow_const, if_pos (by decide), once]
  simp [powr, mul, scale]

end Equations

/-- The derivative follows the rules. -/
theorem derivative_rules {along : Axis} {f d : Expr} (hd : f.derivative along = .ok d) :
    Differentiates along f d := by
  induction f using derivative.induct along generalizing d with
  | case1 i a h => simp only [derivative, h] at hd; cases hd; exact .var h
  | case2 i h => simp [derivative, h] at hd
  | case3 => simp only [derivative] at hd; cases hd; exact .e
  | case4 => simp only [derivative] at hd; cases hd; exact .pi
  | case5 c => simp only [derivative] at hd; cases hd; exact .const c
  | case6 f g ihf ihg =>
    simp only [derivative, bind_eq_ok] at hd
    obtain ⟨df, hf, dg, hg, hd⟩ := hd
    cases hd
    exact .add (ihf hf) (ihg hg)
  | case7 f g ihf ihg =>
    simp only [derivative, bind_eq_ok] at hd
    obtain ⟨df, hf, dg, hg, hd⟩ := hd
    cases hd
    exact .sub (ihf hf) (ihg hg)
  | case8 f g ihf ihg =>
    simp only [derivative, bind_eq_ok] at hd
    obtain ⟨df, hf, dg, hg, hd⟩ := hd
    cases hd
    exact .mul (ihf hf) (ihg hg)
  | case9 f g ihf ihg =>
    simp only [derivative, bind_eq_ok] at hd
    obtain ⟨df, hf, dg, hg, hd⟩ := hd
    cases hd
    exact .div (ihf hf) (ihg hg)
  | case10 f g c hc self =>
    obtain rfl := eq_const_of_constValue? hc
    rw [derivative_pow_const, if_pos self] at hd
    cases hd
    exact .powVariable c self
  | case11 f g c hc other ih =>
    obtain rfl := eq_const_of_constValue? hc
    rw [derivative_pow_const, if_neg other, bind_eq_ok] at hd
    obtain ⟨df, hf, hd⟩ := hd
    cases hd
    exact .powConst c (ih hf)
  | case12 g varying ih =>
    rw [derivative_pow_varying varying, if_pos rfl, bind_eq_ok] at hd
    obtain ⟨dg, hg, hd⟩ := hd
    cases hd
    exact .powE (constValue?_eq_none_iff.1 varying) (ih hg)
  | case13 f g varying other ih =>
    rw [derivative_pow_varying varying, if_neg other] at hd
    exact .pow (constValue?_eq_none_iff.1 varying) other (ih hd)
  | case14 => simp [derivative] at hd
  | case15 k a ih =>
    simp only [derivative, bind_eq_ok] at hd
    obtain ⟨da, ha, hd⟩ := hd
    cases hd
    exact .special k (ih ha)

/-- A property that the constructors keep and that every tree hands on to its operands. -/
structure Stable (P : Expr → Prop) : Prop where
  const : ∀ c, P (const c)
  e : P e
  lhs : ∀ {op l r}, P (binary op l r) → P l
  rhs : ∀ {op l r}, P (binary op l r) → P r
  arg : ∀ {k a}, P (special k a) → P a
  call : ∀ {a} k, P a → P (special k a)
  apply : ∀ {f g} (op : Op), P f → P g → P (op.apply f g)

namespace Stable

variable {P : Expr → Prop} {f g : Expr}

theorem neg (S : Stable P) (hf : P f) : P (neg f) := S.apply .mul (S.const (-1)) hf

theorem powr (S : Stable P) (r : Rat) (hf : P f) : P (powr f r) := S.apply .pow hf (S.const r)

/-- The derivative of a named function is assembled by the constructors. -/
theorem outer (S : Stable P) (k : Kind) (hf : P f) : P (outer k f) := by
  have one := S.const 1
  have square := S.powr 2 hf
  cases k with
  | sin | sinh | cosh => exact S.call _ hf
  | cos => exact S.neg (S.call _ hf)
  | tan | tanh => exact S.powr 2 (S.call _ hf)
  | cot | coth => exact S.neg (S.powr 2 (S.call _ hf))
  | sec => exact S.apply .mul (S.call _ hf) (S.call _ hf)
  | csc | sech | csch => exact S.neg (S.apply .mul (S.call _ hf) (S.call _ hf))
  | asin => exact S.apply .div one (S.powr _ (S.apply .sub one square))
  | acos => exact S.apply .div (S.const _) (S.powr _ (S.apply .sub one square))
  | atan => exact S.apply .div one (S.apply .add one square)
  | asinh => exact S.apply .div one (S.powr _ (S.apply .add square one))
  | acosh => exact S.apply .div one (S.powr _ (S.apply .sub square one))
  | atanh => exact S.apply .div one (S.apply .sub one square)
  | abs => exact S.apply .div hf (S.call _ hf)
  | ln => exact S.apply .div one hf

/-- What a varying power hands on to the power over the base `e` that replaces it. -/
theorem overBaseE (S : Stable P) (h : P (binary .pow f g)) :
    P (power .e (mul g (special .ln f))) :=
  S.apply .pow S.e (S.apply .mul (S.rhs h) (S.call .ln (S.lhs h)))

/-- What is stable under the constructors holds of derivatives, rule by rule. -/
theorem of_differentiates (S : Stable P) {along : Axis} {d : Expr} (hf : P f)
    (rules : Differentiates along f d) : P d := by
  induction rules with
  | var | e | pi | const => exact S.const _
  | add _ _ ihf ihg => exact S.apply .add (ihf (S.lhs hf)) (ihg (S.rhs hf))
  | sub _ _ ihf ihg => exact S.apply .sub (ihf (S.lhs hf)) (ihg (S.rhs hf))
  | mul _ _ ihf ihg =>
    exact S.apply .add (S.apply .mul (ihf (S.lhs hf)) (S.rhs hf))
      (S.apply .mul (S.lhs hf) (ihg (S.rhs hf)))
  | div _ _ ihf ihg =>
    exact S.apply .div (S.apply .sub (S.apply .mul (ihf (S.lhs hf)) (S.rhs hf))
      (S.apply .mul (S.lhs hf) (ihg (S.rhs hf)))) (S.powr 2 (S.rhs hf))
  | powVariable c => exact S.apply .mul (S.const c) (S.powr _ (S.lhs hf))
  | powConst c _ ih =>
    exact S.apply .mul (S.apply .mul (ih (S.lhs hf)) (S.const c)) (S.powr _ (S.lhs hf))
  | powE _ _ ih => exact S.apply .mul (ih (S.rhs hf)) hf
  | pow _ _ _ ih => exact ih (S.overBaseE hf)
  | special k _ ih => exact S.apply .mul (ih (S.arg hf)) (S.outer k (S.arg hf))

/-- The derivative has every stable property of the tree. -/
theorem derivative (S : Stable P) {along : Axis} {d : Expr} (hf : P f)
    (hd : f.derivative along = .ok d) : P d :=
  S.of_differentiates hf (derivative_rules hd)

end Stable

theorem stable_canonical : Stable Canonical where
  const _ := trivial
  e := trivial
  lhs h := h.1
  rhs h := h.2.1
  arg h := h
  call _ h := h
  apply op hf hg := canonical_apply op hf hg

/-- Nothing in the tree is unresolved, and its variables are among `S`. -/
def Over (S : Int → Prop) : Expr → Prop
  | var i => S i
  | e | pi | const _ => True
  | binary _ l r => l.Over S ∧ r.Over S
  | comp _ _ => False
  | special _ a => a.Over S

theorem Over.mono {S T : Int → Prop} {f : Expr} (h : f.Over S) (weaker : ∀ i, S i → T i) :
    f.Over T := by
  induction f with
  | var i => exact weaker i h
  | e | pi | const => trivial
  | binary op l r ihl ihr => exact ⟨ihl h.1, ihr h.2⟩
  | comp => exact h
  | special k a ih => exact ih h

theorem hereditary_over (S : Int → Prop) : Hereditary (Over S) where
  const _ := trivial
  lhs h := h.1
  rhs h := h.2
  arg h := h
  product hf hg := ⟨hf, hg⟩
  quotient h hl := ⟨hl, h.2⟩
  surd _ := ⟨trivial, trivial⟩
  sum hf hg := ⟨hf, hg⟩
  difference hf hg := ⟨hf, hg⟩
  constPower hf _ := ⟨hf, trivial⟩

theorem over_apply {S : Int → Prop} {f g : Expr} (op : Op) (hf : f.Over S) (hg : g.Over S) :
    (op.apply f g).Over S := by
  have H := hereditary_over S
  cases op with
  | add => exact H.add hf hg
  | sub => exact H.sub hf hg
  | mul => exact H.mul hf hg
  | div => exact H.div ⟨hf, hg⟩
  | pow => exact H.power hf hg ⟨hf, hg⟩

/-- No constructor brings in a variable. -/
theorem stable_over (S : Int → Prop) : Stable (Over S) where
  const _ := trivial
  e := trivial
  lhs h := h.1
  rhs h := h.2
  arg h := h
  call _ h := h
  apply op hf hg := over_apply op hf hg

/-- Nothing in the tree is unresolved, and each variable is that of an axis. -/
abbrev Finished : Expr → Prop := Over fun i => ∃ a, Axis.ofPosition? i = some a

/-- The tree is finished and uses at most the first `d` variables. -/
abbrev Within (d : Nat) : Expr → Prop := Over fun i => 0 ≤ i ∧ i < d

/-- A tree within three variables has nothing that is left undone. -/
theorem Within.finished {f : Expr} (h : f.Within 3) : f.Finished := by
  refine Over.mono h ?_
  intro i hi
  obtain ⟨a, -, found⟩ := Axis.exists_of_lt hi.1 hi.2
  exact ⟨a, found⟩

/-- A finished tree has a derivative along every axis. -/
theorem exists_derivative {f : Expr} (along : Axis) (hf : f.Finished) :
    ∃ d, f.derivative along = .ok d := by
  induction f using derivative.induct along with
  | case1 i a h => exact ⟨_, by simp only [derivative, h]; rfl⟩
  | case2 i h =>
    obtain ⟨a, found⟩ := hf
    rw [found] at h
    contradiction
  | case3 | case4 | case5 => exact ⟨_, by simp only [derivative]; rfl⟩
  | case6 f g ihf ihg | case7 f g ihf ihg | case8 f g ihf ihg | case9 f g ihf ihg =>
    obtain ⟨df, hdf⟩ := ihf hf.1
    obtain ⟨dg, hdg⟩ := ihg hf.2
    exact ⟨_, by rw [derivative, hdf, hdg]; rfl⟩
  | case10 f g c hc self =>
    obtain rfl := eq_const_of_constValue? hc
    exact ⟨_, by rw [derivative_pow_const, if_pos self]⟩
  | case11 f g c hc other ih =>
    obtain rfl := eq_const_of_constValue? hc
    obtain ⟨df, hdf⟩ := ih hf.1
    exact ⟨_, by rw [derivative_pow_const, if_neg other, hdf]; rfl⟩
  | case12 g varying ih =>
    obtain ⟨dg, hdg⟩ := ih hf.2
    exact ⟨_, by rw [derivative_pow_varying varying, if_pos rfl, hdg]; rfl⟩
  | case13 f g varying other ih =>
    obtain ⟨d, hd⟩ := ih ((stable_over _).overBaseE hf)
    exact ⟨d, by rw [derivative_pow_varying varying, if_neg other, hd]⟩
  | case14 => exact hf.elim
  | case15 k a ih =>
    obtain ⟨da, hda⟩ := ih hf
    exact ⟨_, by rw [derivative, hda]; rfl⟩

end Expr

end Fluxion
