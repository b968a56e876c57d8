import Fluxion.ScalarField
import Fluxion.Proofs.Fractions
import Fluxion.Proofs.Slope

/-!
# Mixed partial derivatives

The derivative of a fraction has the slope of the fraction as its value: over any ring, the value
of the fraction in the dual numbers over that ring has the value of the derivative as its second
component (`value_snd`). The ring may consist of dual numbers itself. So the value of a second
derivative along `a` and then along `b` is found at the point that moves along `a` and along `b` at
once (`mixedAt`). Swapping the two directions swaps the components of the value and leaves the mixed
one where it is. The two mixed derivatives are different trees in general, but they have the same
value (`hessian_symmetric`).
-/

namespace Fluxion
set_option autoImplicit false

/-- Nested dual numbers with the two directions swapped. -/
def swap {R : Type} [CommRing R] : DualNumber (DualNumber R) →+* DualNumber (DualNumber R) where
  toFun u := jet (jet u.fst.fst u.snd.fst) (jet u.fst.snd u.snd.snd)
  map_one' := rfl
  map_zero' := rfl
  map_add' u v := rfl
  map_mul' u v := by
    refine jet_ext (jet_ext ?_ ?_) (jet_ext ?_ ?_)
    · simp
    · simp
    · simp
    · simp
      ring

namespace Expr

section Fractions

variable {R : Type} [CommRing R] [Nontrivial R] {num : ℚ →+* R} {p : Axis → R} {along : Axis}
variable {f g d : Expr} {u v : DualNumber R}

/-- The value of a fraction is the first component of its value in the dual numbers. -/
theorem value_fst (fraction : f.Fraction fun _ => True)
    (h : (fractions (dualNum num)).value (moving p along) f = some u) :
    (fractions num).value p f = some u.fst :=
  value_map (lawful_fractions num) (TrivSqZeroExt.fstHom R R R).toRingHom fraction h

variable (along) in
/-- A fraction with a value also has one in the dual numbers. -/
theorem exists_value_moving (fraction : f.Fraction fun _ => True) {x : R}
    (hx : (fractions num).value p f = some x) :
    ∃ u, (fractions (dualNum num)).value (moving p along) f = some u := by
  refine exists_value_of_map _ (lawful_fractions num) (TrivSqZeroExt.fstHom R R R).toRingHom
    (fun u => TrivSqZeroExt.isUnit_iff_isUnit_fst.2) ?_ fraction hx
  intro c u v _ power
  obtain ⟨m, n, same, bearing, -⟩ := isPower_num_iff.1 (pow_fractions_eq_some.1 power)
  exact ⟨m, n, same, bearing⟩

omit [Nontrivial R] in
/-- The derivative of a power, times the base. -/
theorem fst_mul_snd_pow (u : DualNumber R) (n : ℕ) :
    u.fst * (u ^ n).snd = n * u.fst ^ n * u.snd := by
  induction n with
  | zero => simp
  | succ n ih =>
    rw [pow_succ, DualNumber.snd_mul, TrivSqZeroExt.fst_pow]
    push_cast
    linear_combination u.fst * ih

/-- What is left of a power when it is differentiated. -/
theorem snd_power {c : ℚ} (nonzero : c ≠ 0) (h : IsPower (dualNum num) u (dualNum num c) v) :
    ∃ y, IsPower num u.fst (num (c - 1)) y ∧ v.snd = num c * y * u.snd := by
  obtain ⟨m, n, rfl, bearing, power⟩ := isPower_num_iff.1 h
  rcases bearing with rfl | unit
  · obtain ⟨k, rfl⟩ : ∃ k, m = k + 1 := Nat.exists_eq_succ_of_ne_zero (by simpa using nonzero)
    refine ⟨u.fst ^ k, isPower_num_iff.2 ⟨k, 0, by push_cast; ring, .inl rfl, by simp⟩, ?_⟩
    rw [pow_zero, mul_one] at power
    rw [power, TrivSqZeroExt.snd_pow]
    simp [mul_assoc]
  · -- `v / u` is left over; the product rule for `v * u ^ n = u ^ m` says so up to `u ^ (n + 1)`
    have base := TrivSqZeroExt.isUnit_iff_isUnit_fst.1 unit
    obtain ⟨i, hi⟩ := base.exists_left_inv
    have first := congrArg TrivSqZeroExt.fst power
    have second := congrArg TrivSqZeroExt.snd power
    rw [TrivSqZeroExt.fst_mul, TrivSqZeroExt.fst_pow, TrivSqZeroExt.fst_pow] at first
    rw [DualNumber.snd_mul, TrivSqZeroExt.fst_pow] at second
    refine ⟨v.fst * i, isPower_num_iff.2 ⟨m, n + 1, by push_cast; ring, .inr base, ?_⟩, ?_⟩
    · linear_combination first + v.fst * u.fst ^ n * hi
    · refine (base.pow (n + 1)).mul_right_cancel ?_
      have left := fst_mul_snd_pow u m
      have right := fst_mul_snd_pow u n
      rw [map_sub, map_natCast, map_natCast]
      linear_combination u.fst * second + left - v.fst * right - m * u.snd * first
        - (m - n) * v.fst * u.fst ^ n * u.snd * hi

/-- What the rules of differentiation make of a fraction has the second component of its value in
the dual numbers as its value. -/
theorem value_snd (rules : Differentiates along f d) (canonical : f.Canonical)
    (fraction : f.Fraction fun _ => True)
    (hu : (fractions (dualNum num)).value (moving p along) f = some u) :
    (fractions num).value p d = some u.snd := by
  have L := lawful_fractions num
  induction rules generalizing u with
  | @var i a ha =>
    rw [Interpretation.value_var, ha] at hu
    cases hu
    rw [Interpretation.value_const]
    by_cases same : a = along <;> simp [moving, same]
  | const =>
    cases hu
    rw [Interpretation.value_const, map_zero]
    rfl
  | e | pi | special => exact fraction.elim
  -- The exponents of a fraction are constants.
  | powE varying | pow varying =>
    obtain ⟨-, c, rfl, -⟩ := fraction
    contradiction
  | add hf hg ihf ihg =>
    obtain ⟨a, b, ha, hb, joined⟩ := Interpretation.value_binary_eq_some.1 hu
    cases joined
    exact L.value_add (ihf canonical.1 fraction.1 ha) (ihg canonical.2.1 fraction.2 hb)
  | sub hf hg ihf ihg =>
    obtain ⟨a, b, ha, hb, joined⟩ := Interpretation.value_binary_eq_some.1 hu
    cases joined
    exact L.value_sub (ihf canonical.1 fraction.1 ha) (ihg canonical.2.1 fraction.2 hb)
  | mul hf hg ihf ihg =>
    obtain ⟨a, b, ha, hb, joined⟩ := Interpretation.value_binary_eq_some.1 hu
    cases joined
    exact HasJet.product L
      ⟨canonical.1, hf, value_fst fraction.1 ha, ihf canonical.1 fraction.1 ha⟩
      ⟨canonical.2.1, hg, value_fst fraction.2 hb, ihg canonical.2.1 fraction.2 hb⟩
  | div hf hg ihf ihg =>
    obtain ⟨a, b, ha, hb, joined⟩ := Interpretation.value_binary_eq_some.1 hu
    obtain ⟨unit, quotient⟩ := div_fractions_eq_some.1 joined
    exact HasJet.quotient L
      ⟨canonical.1, hf, value_fst fraction.1 ha, ihf canonical.1 fraction.1 ha⟩
      ⟨canonical.2.1, hg, value_fst fraction.2 hb, ihg canonical.2.1 fraction.2 hb⟩ unit quotient
  | powVariable c self =>
    obtain ⟨a, ha, joined⟩ := Interpretation.value_lhs (Interpretation.value_const ..) hu
    obtain ⟨i, rfl, found⟩ := exists_of_isVariable self
    obtain ⟨y, power, slope⟩ :=
      snd_power canonical.exponent_ne_zero (pow_fractions_eq_some.1 joined)
    have constant : (const c).Canonical := trivial
    have rest := L.value_powr_base canonical (value_fst fraction.1 ha)
      (pow_fractions_eq_some.2 power)
    have product := L.value_mul constant (canonical_powr (c - 1) canonical.1)
      (Interpretation.value_const _ p c) rest
    refine product.trans (congrArg some ?_)
    rw [Interpretation.value_var, found] at ha
    cases ha
    rw [slope]
    simp [moving, fractions]
  | powConst c hf ih =>
    obtain ⟨a, ha, joined⟩ := Interpretation.value_lhs (Interpretation.value_const ..) hu
    obtain ⟨y, power, slope⟩ :=
      snd_power canonical.exponent_ne_zero (pow_fractions_eq_some.1 joined)
    have rest := L.value_powr_base canonical (value_fst fraction.1 ha)
      (pow_fractions_eq_some.2 power)
    have inner : HasJet (fractions num) p along _ _ a :=
      ⟨canonical.1, hf, value_fst fraction.1 ha, ih canonical.1 fraction.1 ha⟩
    refine (inner.power L rest).trans (congrArg some ?_)
    rw [slope]
    simp only [fractions]
    ring

/-- The derivative of a fraction is a fraction. -/
theorem Fraction.of_differentiates (fraction : f.Fraction fun _ => True)
    (rules : Differentiates along f d) : d.Fraction fun _ => True := by
  have H := hereditary_fraction
  induction rules with
  | var | const => trivial
  | e | pi | special => exact fraction.elim
  | powE varying | pow varying =>
    obtain ⟨-, c, rfl, -⟩ := fraction
    contradiction
  | add _ _ ihf ihg => exact H.add (ihf fraction.1) (ihg fraction.2)
  | sub _ _ ihf ihg => exact H.sub (ihf fraction.1) (ihg fraction.2)
  | mul _ _ ihf ihg =>
    exact H.add (H.mul (ihf fraction.1) fraction.2) (H.mul fraction.1 (ihg fraction.2))
  | div _ _ ihf ihg =>
    exact H.div ⟨H.sub (H.mul (ihf fraction.1) fraction.2) (H.mul fraction.1 (ihg fraction.2)),
      H.powr 2 fraction.2⟩
  | powVariable c => exact H.mul (H.const c) (H.powr _ fraction.1)
  | powConst c _ ih => exact H.mul (H.mul (ih fraction.1) (H.const c)) (H.powr _ fraction.1)

/-- The value of a second derivative, found at the point that moves along both axes. -/
theorem value_snd_snd {a b : Axis} {da dab : Expr} (first : Differentiates a f da)
    (second : Differentiates b da dab) (canonical : f.Canonical)
    (fraction : f.Fraction fun _ => True) {w : DualNumber (DualNumber R)}
    (hw : (fractions (dualNum (dualNum num))).value (moving (moving p b) a) f = some w) :
    (fractions num).value p dab = some w.snd.snd :=
  value_snd second (stable_canonical.of_differentiates canonical first)
    (fraction.of_differentiates first) (value_snd first canonical fraction hw)

omit [Nontrivial R] in
theorem swap_moving (a b c : Axis) :
    swap (moving (moving p b) a c) = moving (moving p a) b c := by
  simp only [moving]
  split <;> split <;> rfl

/-- The second derivatives of a fraction along two axes have the same value in both orders. -/
theorem value_mixed {a b : Axis} {da db dab dba : Expr} (canonical : f.Canonical)
    (fraction : f.Fraction fun _ => True) (hda : Differentiates a f da)
    (hdb : Differentiates b f db) (hdab : Differentiates b da dab)
    (hdba : Differentiates a db dba) {x : R} (hx : (fractions num).value p f = some x) :
    ∃ w, (fractions (dualNum (dualNum num))).value (moving (moving p b) a) f = some w ∧
      (fractions num).value p dab = some w.snd.snd ∧
      (fractions num).value p dba = some w.snd.snd := by
  obtain ⟨u, hu⟩ := exists_value_moving b fraction hx
  obtain ⟨w, hw⟩ := exists_value_moving a fraction hu
  have swapped := value_map (S := DualNumber (DualNumber R))
    (lawful_fractions (dualNum (dualNum num))) swap fraction hw
  simp only [swap_moving] at swapped
  -- the component along both axes stays where it is
  exact ⟨w, hw, value_snd_snd hda hdab canonical fraction hw,
    value_snd_snd (w := swap w) hdb hdba canonical fraction swapped⟩

end Fractions

/-- The mixed derivative of a fraction along two axes at a point: the component along both of the
value where the point moves along both at once. -/
noncomputable def mixedAt (p : Axis → ℚ) (a b : Axis) (f : Expr) : Option ℚ :=
  ((fractions (dualNum (dualNum (RingHom.id ℚ)))).value (moving (moving p b) a) f).map
    fun w => w.snd.snd

section Reals

variable {p : Axis → ℚ} {f : Expr}

/-- The rational value of a fraction is its value in the reals. -/
theorem value_of_rational (fraction : f.Fraction fun _ => True) {q : ℚ}
    (hq : (fractions (RingHom.id ℚ)).value p f = some q) :
    exact.value (fun a => (p a : ℝ)) f = some (q : ℝ) :=
  value_map (lawful_reals realFunction) (Rat.castHom ℝ) fraction hq

/-- At a rational point, a fraction with integer exponents has a rational value. -/
theorem exists_rational_value (fraction : f.Fraction fun c => ∃ n : ℤ, c = n) {v : ℝ}
    (hv : exact.value (fun a => (p a : ℝ)) f = some v) :
    ∃ q, (fractions (RingHom.id ℚ)).value p f = some q := by
  refine exists_value_of_map _ (lawful_reals realFunction) (Rat.castHom ℝ) ?_ ?_ fraction hv
  · intro u unit
    exact isUnit_iff_ne_zero.2 fun zero => unit.ne_zero (by rw [zero, map_zero])
  · rintro _ u v ⟨n, rfl⟩ power
    refine ⟨n.toNat, (-n).toNat, ?_, ?_⟩
    · exact_mod_cast (Int.toNat_sub_toNat_neg n).symm
    · rcases (pow_reals_eq_some.1 power).1 with pos | ⟨-, nonneg⟩ | ⟨neg, -⟩
      · exact .inr (isUnit_iff_ne_zero.2 pos.ne')
      · have nonneg : 0 ≤ n := by simpa [num_reals] using nonneg
        exact .inl (by omega)
      · exact .inr (isUnit_iff_ne_zero.2 neg.ne)

end Reals

end Expr

namespace ScalarField

variable {f : ScalarField}

theorem slope_eq_ok {a : Axis} {d : Expr} (h : f.tree.derivative a = .ok d) :
    f.slope a = .ok ⟨f.dim, d⟩ := by
  rw [slope, h]
  rfl

/-- The entries of the Hessian matrix are the second derivatives. -/
theorem hessian_get (dim : f.dim = 2 ∨ f.dim = 3) {first : Axis → Expr}
    {second : Axis → Axis → Expr} (hfirst : ∀ a, f.tree.derivative a = .ok (first a))
    (hsecond : ∀ a b, (first a).derivative b = .ok (second a b)) :
    ∃ H, f.hessian = .ok H ∧ ∀ i j : ℤ, 1 ≤ i → i ≤ f.dim → 1 ≤ j → j ≤ f.dim →
      ∃ a b, Axis.ofPosition? (i - 1) = some a ∧ Axis.ofPosition? (j - 1) = some b ∧
        H.get i j = .ok ⟨f.dim, second a b⟩ := by
  have rows : f.slope = fun a => .ok ⟨f.dim, first a⟩ := funext fun a => slope_eq_ok (hfirst a)
  have entries (a : Axis) : slope ⟨f.dim, first a⟩ = fun b => .ok ⟨f.dim, second a b⟩ :=
    funext fun b => slope_eq_ok (hsecond a b)
  have whole : f.hessian = Matrix.ofList
      (f.axes.map fun a => f.axes.map fun b => ⟨f.dim, second a b⟩).flatten f.dim f.dim := by
    have pure {α : Type} (a : α) : (.ok a : Outcome α) = pure a := rfl
    simp only [hessian, gradient, rows, pure, List.mapM_pure, pure_bind, List.mapM_map,
      Function.comp_def, entries]
  obtain ⟨n, tree⟩ := f
  rcases dim with rfl | rfl
  all_goals
    refine ⟨_, whole.trans (if_pos rfl), ?_⟩
    intro i j hi hi' hj hj'
    interval_cases i <;> interval_cases j <;> exact ⟨_, _, rfl, rfl, rfl⟩

end ScalarField

/-- The Hessian matrix of a fraction is symmetric in its values: its entries are the second
derivatives, and at a rational point where the fraction is defined, those on the two sides of the
diagonal have one rational value, the mixed derivative. -/
theorem hessian_symmetric {f : ScalarField} (dim : f.dim = 2 ∨ f.dim = 3)
    (canonical : f.tree.Canonical) (fraction : f.tree.Fraction fun c => ∃ n : ℤ, c = n)
    (p : Axis → ℚ) {v : ℝ} (defined : exact.value (fun a => (p a : ℝ)) f.tree = some v) :
    ∃ H, f.hessian = .ok H ∧ ∀ i j : ℤ, 1 ≤ i → i ≤ f.dim → 1 ≤ j → j ≤ f.dim →
      ∃ a b, Axis.ofPosition? (i - 1) = some a ∧ Axis.ofPosition? (j - 1) = some b ∧
        ∃ (s t : ScalarField) (q : ℚ), H.get i j = .ok s ∧ H.get j i = .ok t ∧
          (f.tree.derivative a >>= Expr.derivative b) = .ok s.tree ∧
          (f.tree.derivative b >>= Expr.derivative a) = .ok t.tree ∧
          f.tree.mixedAt p a b = some q ∧
          exact.value (fun a => (p a : ℝ)) s.tree = some (q : ℝ) ∧
          exact.value (fun a => (p a : ℝ)) t.tree = some (q : ℝ) := by
  obtain ⟨x, hx⟩ := Expr.exists_rational_value fraction defined
  have plain : f.tree.Fraction fun _ => True := fraction.mono fun _ _ => trivial
  have finished := Expr.finished_of_value defined
  choose first hfirst using fun a => Expr.exists_derivative a finished
  choose second hsecond using fun a b =>
    Expr.exists_derivative b ((Expr.stable_over _).derivative finished (hfirst a))
  obtain ⟨H, hH, entries⟩ := ScalarField.hessian_get dim hfirst hsecond
  refine ⟨H, hH, ?_⟩
  intro i j hi hi' hj hj'
  obtain ⟨a, b, ha, hb, hs⟩ := entries i j hi hi' hj hj'
  obtain ⟨b', a', hb', ha', ht⟩ := entries j i hj hj' hi hi'
  obtain rfl := Option.some.inj (ha.symm.trans ha')
  obtain rfl := Option.some.inj (hb.symm.trans hb')
  have rules (a b : Axis) := Expr.derivative_rules (hsecond a b)
  have twice (a b : Axis) : (f.tree.derivative a >>= Expr.derivative b) = .ok (second a b) := by
    rw [hfirst]
    exact hsecond a b
  obtain ⟨w, moved, hab, hba⟩ := Expr.value_mixed canonical plain (Expr.derivative_rules (hfirst a))
    (Expr.derivative_rules (hfirst b)) (rules a b) (rules b a) hx
  have mixed : f.tree.mixedAt p a b = some w.snd.snd := by
    rw [Expr.mixedAt, moved]
    rfl
  have whole (a b : Axis) : (second a b).Fraction fun _ => True :=
    (plain.of_differentiates (Expr.derivative_rules (hfirst a))).of_differentiates (rules a b)
  exact ⟨a, b, ha, hb, _, _, w.snd.snd, hs, ht, twice a b, twice b a, mixed,
    Expr.value_of_rational (whole a b) hab, Expr.value_of_rational (whole b a) hba⟩

/-- The mixed entries of the Hessian matrix of `(x*y) ^ -2` at `x = 2` and `y = 3`. -/
theorem hessian_symmetric_product_power :
    let p : Axis → ℚ := fun a => a.index + 2
    let f : ScalarField :=
      ⟨2, .binary .pow (.binary .mul (.var 0) (.var 1)) (.const (-2))⟩
    ∃ H, f.hessian = .ok H ∧ ∃ s t : ScalarField, H.get 1 2 = .ok s ∧ H.get 2 1 = .ok t ∧
      exact.value (fun a => (p a : ℝ)) s.tree = some (1 / 54) ∧
      exact.value (fun a => (p a : ℝ)) t.tree = some (1 / 54) := by
  intro p f
  have canonical : f.tree.Canonical := by
    refine ⟨⟨trivial, trivial, ?_⟩, trivial, ?_⟩
    · simp [Op.apply, Expr.mul, Expr.mulInto, Expr.over?, Expr.mergePowers, Expr.base]
    · norm_num [Op.apply, Expr.power, Expr.powr]
  have fraction : f.tree.Fraction fun c => ∃ n : ℤ, c = n := ⟨⟨trivial, trivial⟩, _, rfl, -2, rfl⟩
  have product : exact.value (fun a => (p a : ℝ)) (.binary .mul (.var 0) (.var 1)) = some 6 :=
    Interpretation.value_join .mul rfl rfl
      (by norm_num [Interpretation.join, p, Axis.index])
  have power : exact.pow 6 (exact.num (-2)) = some (6 ^ (exact.num (-2))) :=
    pow_reals_eq_some.2 ⟨.inl (by norm_num), rfl⟩
  have mixed : f.tree.mixedAt p .x .y = some (1 / 54) := by
    -- the components of a value: itself, its two derivatives, and the mixed one
    have inner : (fractions (dualNum (dualNum (RingHom.id ℚ)))).value
        (Expr.moving (Expr.moving p .y) .x) (.binary .mul (.var 0) (.var 1)) =
          some (jet (jet (6 : ℚ) 2) (jet 3 1)) := by
      have x : Expr.moving (Expr.moving p .y) .x .x = jet (jet (2 : ℚ) 0) 1 :=
        jet_ext (jet_ext (by norm_num [Expr.moving, p, Axis.index]) rfl) rfl
      have y : Expr.moving (Expr.moving p .y) .x .y = jet (jet (3 : ℚ) 1) 0 :=
        jet_ext (jet_ext (by norm_num [Expr.moving, p, Axis.index]) rfl) rfl
      refine Interpretation.value_join .mul (congrArg some x) (congrArg some y) (congrArg some ?_)
      refine jet_ext (jet_ext ?_ ?_) (jet_ext ?_ ?_)
      all_goals norm_num
    have moved : (fractions (dualNum (dualNum (RingHom.id ℚ)))).value
        (Expr.moving (Expr.moving p .y) .x) f.tree =
          some (jet (jet (1 / 36 : ℚ) (-1 / 54)) (jet (-1 / 36) (1 / 54))) := by
      refine Interpretation.value_join .pow inner rfl ?_
      refine pow_fractions_eq_some.2 (isPower_num_iff.2 ⟨0, 2, by norm_num, .inr ?_, ?_⟩)
      · refine TrivSqZeroExt.isUnit_iff_isUnit_fst.2 (TrivSqZeroExt.isUnit_iff_isUnit_fst.2 ?_)
        simp
      · refine jet_ext (jet_ext ?_ ?_) (jet_ext ?_ ?_)
        all_goals norm_num [pow_two]
    rw [Expr.mixedAt, moved]
    rfl
  obtain ⟨H, hH, entries⟩ := hessian_symmetric (.inl rfl) canonical fraction p
    (Interpretation.value_join .pow product rfl power)
  obtain ⟨a, b, ha, hb, s, t, q, hs, ht, -, -, value, left, right⟩ :=
    entries 1 2 le_rfl (by decide) (by decide) le_rfl
  cases ha
  cases hb
  obtain rfl : q = 1 / 54 := Option.some.inj (value.symm.trans mixed)
  push_cast at left right
  exact ⟨H, hH, s, t, hs, ht, left, right⟩

end Fluxion
