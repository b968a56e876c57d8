import Fluxion.Proofs.Differentiation

/-!
# Derivatives along absent variables

A tree without the variable of an axis has the constant zero as its derivative along that axis, not
only a tree of that value (`derivative_absent`). Every rule of differentiation makes zero of zeros,
but one: a quotient has the square of the denominator below, and where that folds to zero, the
derivative is the plain quotient of zeros. So no denominator may have the square zero (`Proper`).
This passes on to the trees that differentiation makes on its way, because no constructor but the
quotient brings a denominator that was not there before (`multiplicative_proper`).
-/

namespace Fluxion.Expr
set_option autoImplicit false

/-- The square of the denominator does not fold to zero. -/
def ProperQuotient (f : Expr) : Prop := ∀ l r, f = binary .div l r → powr r 2 ≠ const 0

/-- No denominator in the tree has the square zero. -/
abbrev Proper : Expr → Prop := All ProperQuotient

variable {along : Axis} {f g d : Expr}

/-- Products and powers of proper trees are proper: their denominators are those of the factors and
of the bases. -/
theorem multiplicative_proper : Multiplicative Proper where
  toScalable := by
    refine scalable_all (fun _ _ _ h => nomatch h) (fun _ _ _ _ h => nomatch h) ?_
      (fun _ _ _ h => nomatch h)
    intro a l r proper l' r' same
    cases same
    exact proper a r rfl
  constPower hf _ := all_binary.2
    ⟨fun _ _ h => (nomatch h), hf, all_const.2 fun _ _ h => nomatch h⟩

theorem Proper.overBaseE (h : (binary .pow f g).Proper) :
    (power e (mul g (special .ln f))).Proper := by
  have H := multiplicative_proper
  have base : Proper e := by
    intro s hs l r same
    obtain rfl := List.mem_singleton.1 hs
    contradiction
  have logarithm : (special .ln f).Proper :=
    all_special.2 ⟨fun _ _ same => (nomatch same), H.lhs h⟩
  have exponent := H.mul (H.rhs h) logarithm
  exact H.power base exponent (all_binary.2 ⟨fun _ _ same => (nomatch same), base, exponent⟩)

theorem div_zero_left (h : g ≠ const 0) : div (const 0) g = const 0 := by
  unfold div
  rw [if_neg h, if_neg (Ne.symm h)]
  split <;> simp

/-- The rules of differentiation make zero of a proper tree without the variable of the axis. -/
theorem Differentiates.eq_zero (rules : Differentiates along f d)
    (absent : f.Over fun i => Axis.ofPosition? i ≠ some along) (proper : f.Proper) :
    d = .const 0 := by
  have H := multiplicative_proper
  have S := stable_over fun i => Axis.ofPosition? i ≠ some along
  induction rules with
  | @var i a found =>
    have other : a ≠ along := by
      rintro rfl
      exact absent found
    rw [if_neg other]
  | e | pi | const => rfl
  | add _ _ ihf ihg =>
    rw [ihf (S.lhs absent) (H.lhs proper), ihg (S.rhs absent) (H.rhs proper), add_zero_left]
  | sub _ _ ihf ihg =>
    rw [ihf (S.lhs absent) (H.lhs proper), ihg (S.rhs absent) (H.rhs proper), sub_zero_right]
  | mul _ _ ihf ihg =>
    rw [ihf (S.lhs absent) (H.lhs proper), ihg (S.rhs absent) (H.rhs proper), mul_zero_left,
      mul_zero_right, add_zero_left]
  | div _ _ ihf ihg =>
    rw [ihf (S.lhs absent) (H.lhs proper), ihg (S.rhs absent) (H.rhs proper), mul_zero_left,
      mul_zero_right, sub_zero_right, div_zero_left (proper.self _ _ rfl)]
  -- The base is the variable of the axis, which is absent.
  | powVariable c self =>
    have base := S.lhs absent
    unfold isVariable at self
    split at self
    · exact absurd (of_decide_eq_true self) base
    · contradiction
  | powConst c _ ih => rw [ih (S.lhs absent) (H.lhs proper), mul_zero_left, mul_zero_left]
  | powE _ _ ih => rw [ih (S.rhs absent) (H.rhs proper), mul_zero_left]
  | pow _ _ _ ih => exact ih (S.overBaseE absent) (Proper.overBaseE proper)
  | special k _ ih => rw [ih (S.arg absent) (H.arg proper), mul_zero_left]

theorem Over.of_subtrees {S T : Int → Prop} (h : f.Over S)
    (named : ∀ i, var i ∈ f.subtrees → T i) : f.Over T := by
  induction f with
  | var i => exact named i (mem_subtrees_self _)
  | e | pi | const => trivial
  | binary op l r ihl ihr =>
    constructor
    · exact ihl h.1 fun i hi => named i (subtrees_trans hi (lhs_mem_subtrees ..))
    · exact ihr h.2 fun i hi => named i (subtrees_trans hi (rhs_mem_subtrees ..))
  | comp => exact h.elim
  | special k a ih =>
    exact ih h fun i hi => named i (subtrees_trans hi (arg_mem_subtrees ..))

/-- The derivative of a finished tree along an axis whose variable does not occur in it is the
constant zero, if no denominator in it has the square zero. -/
theorem derivative_absent {f : Expr} {along : Axis} (finished : f.Finished)
    (absent : ∀ i, var i ∈ f.subtrees → Axis.ofPosition? i ≠ some along)
    (proper : ∀ l r, binary .div l r ∈ f.subtrees → powr r 2 ≠ const 0) :
    f.derivative along = .ok (const 0) := by
  obtain ⟨d, hd⟩ := exists_derivative along finished
  have apart : f.Over fun i => Axis.ofPosition? i ≠ some along := finished.of_subtrees absent
  have denominators : f.Proper := by
    rintro s hs l r rfl
    exact proper l r hs
  rw [hd, (derivative_rules hd).eq_zero apart denominators]

/-- The power `(1/y)^z` along `x`: it is put over the base `e` first. -/
theorem derivative_absent_power :
    let f := binary .pow (binary .div (const 1) (var 1)) (var 2)
    f.Finished ∧ (∀ i, var i ∈ f.subtrees → Axis.ofPosition? i ≠ some .x) ∧
      (∀ l r, binary .div l r ∈ f.subtrees → powr r 2 ≠ const 0) ∧
      f.derivative .x = .ok (const 0) := by
  intro f
  have finished : f.Finished := ⟨⟨trivial, .y, rfl⟩, .z, rfl⟩
  have absent : ∀ i, var i ∈ f.subtrees → Axis.ofPosition? i ≠ some .x := by
    intro i hi
    have places : i = 1 ∨ i = 2 := by simpa [f, subtrees] using hi
    rcases places with rfl | rfl <;> decide
  have proper : ∀ l r, binary .div l r ∈ f.subtrees → powr r 2 ≠ const 0 := by
    intro l r h
    have same : l = const 1 ∧ r = var 1 := by simpa [f, subtrees] using h
    rw [same.2]
    simp [powr]
  exact ⟨finished, absent, proper, derivative_absent finished absent proper⟩

/-- The derivative of `x/0` along `y` is `0/0`: the condition on denominators is needed. -/
example : (binary .div (var 0) (const 0)).derivative .y =
    .ok (binary .div (const 0) (const 0)) := by
  cbv

end Fluxion.Expr
