import Fluxion.Proofs.RoundTrip
import Fluxion.Proofs.Slope

/-!
# Linearity of the derivative

The derivative of a sum and the sum of the derivatives need not be the same tree. The constructors
simplify locally: `2*ln(x) + ln(x)` is collected into `3*ln(x)`, whose derivative is `3/x`, while
the derivatives of the two terms only make `2/x + 1/x`. Where no rule fires, the trees are the same.

What does hold of every two trees is that both sides have the same value (`derivative_linear`). A
tree and its derivative have the components of a dual number as their values (`Carries`), and the
constructors compute with these numbers whichever of their rules fire (`computes_settled`). Rules
drop and regroup operands, so it takes a derivative with a value in every subtree (`Tangible`).
-/

namespace Fluxion.Expr
set_option autoImplicit false

section Trees

variable {along : Axis} {f g d df dg : Expr} {c : Rat}

/-- The tree is neither a quotient nor a constant times another tree. -/
def Bare : Expr → Prop
  | binary .div _ _ | binary .mul (const _) _ => False
  | _ => True

/-- The constant stays a plain factor of the tree, or takes it away. -/
def PlainMultiple (c : Rat) (f : Expr) : Prop := c = 0 ∨ c = 1 ∨ f.Bare

/-- The sum is plain, a term is a constant, or the terms are the same and make a plain multiple. -/
def PlainSum (f g : Expr) : Prop :=
  (∃ c, f = const c) ∨ (∃ c, g = const c) ∨ add f g = binary .add f g ∨ f = g ∧ f.Bare

theorem derivative_const : (const c).derivative along = .ok (const 0) := by
  rw [derivative]

theorem eq_zero_of_derivative_const (h : (const c).derivative along = .ok d) : d = const 0 := by
  rw [derivative_const] at h
  exact (Except.ok.inj h).symm

theorem derivative_sum_eq_ok : (binary .add f g).derivative along = .ok d ↔
    ∃ df dg, f.derivative along = .ok df ∧ g.derivative along = .ok dg ∧ add df dg = d := by
  simp only [derivative, bind_eq_ok, pure, Except.pure, Except.ok.injEq, exists_and_left]

theorem derivative_difference_eq_ok : (binary .sub f g).derivative along = .ok d ↔
    ∃ df dg, f.derivative along = .ok df ∧ g.derivative along = .ok dg ∧ sub df dg = d := by
  simp only [derivative, bind_eq_ok, pure, Except.pure, Except.ok.injEq, exists_and_left]

/-- The derivative of a multiple is the multiple of the derivative. -/
theorem derivative_multiple (hf : f.derivative along = .ok df) :
    (binary .mul (const c) f).derivative along = .ok (scale c df) := by
  rw [derivative, derivative_const, hf]
  refine congrArg Except.ok ?_
  simp only [mul]
  rw [scale_zero, add_zero_left]

/-- The derivative of a quotient by a constant. -/
theorem derivative_over_const (hf : f.derivative along = .ok df) :
    (binary .div f (const c)).derivative along =
      .ok (div (scale c df) (powr (const c) 2)) := by
  rw [derivative, hf, derivative_const]
  refine congrArg Except.ok ?_
  rw [mul_const_right, mul_const_right, scale_zero, sub_zero_right]

/-- A power of constants has the derivative zero. -/
theorem derivative_surd {k : Rat} :
    (binary .pow (const c) (const k)).derivative along = .ok (const 0) := by
  rw [derivative_pow_const, if_neg (by simp [isVariable]), derivative_const]
  refine congrArg Except.ok ?_
  rw [mul, scale, zero_mul, mul, scale_zero]

/-- A power of constants has the derivative of a constant. -/
theorem derivative_constPow {k : Rat} : (constPow c k).derivative along = .ok (const 0) := by
  fun_cases constPow c k with
  | case4 => exact derivative_surd
  | _ => exact derivative_const

/-- The derivative of a plain multiple is the multiple of the derivative. -/
theorem derivative_scale (plain : PlainMultiple c f) (hf : f.derivative along = .ok df) :
    (scale c f).derivative along = .ok (scale c df) := by
  by_cases zero : c = 0
  · rw [zero, scale_zero, scale_zero, derivative_const]
  by_cases one : c = 1
  · rw [one, scale_one, scale_one, hf]
  have bare := (plain.resolve_left zero).resolve_left one
  fun_cases scale c f with
  | case1 d =>
    obtain rfl := eq_zero_of_derivative_const hf
    rw [derivative_const, scale, mul_zero]
  | case4 | case7 | case8 => exact bare.elim
  | case11 =>
    rw [derivative_surd] at hf
    cases hf
    rw [derivative_constPow, scale, mul_zero]
  | case12 | case15 => exact derivative_multiple hf
  | _ => contradiction

/-- A multiple of a constant has the derivative zero. -/
theorem derivative_eq_zero_of_coefficient (h : (coefficient f).2 = const c) :
    f.derivative along = .ok (const 0) := by
  unfold coefficient at h
  split at h
  · cases h
    rw [derivative_multiple derivative_const, scale, mul_zero]
  · cases h
    exact derivative_const

/-- Adding to a constant does not change the derivative. -/
theorem derivative_of_adds_const {h : Expr} (rules : Adds (const c) g h)
    (hg : g.derivative along = .ok dg) : h.derivative along = .ok dg := by
  cases rules with
  | zeroLeft => exact hg
  | zeroRight | constants | double =>
    obtain rfl := eq_zero_of_derivative_const hg
    exact derivative_const
  | collected =>
    unfold collect
    split
    · rename_i alike
      rw [derivative_eq_zero_of_coefficient alike.symm] at hg
      cases hg
      exact derivative_const
    · exact derivative_sum_eq_ok.2 ⟨_, _, derivative_const, hg, add_zero_left dg⟩

/-- Subtracting from a constant other than zero negates the derivative. -/
theorem derivative_const_sub (nonzero : c ≠ 0) (hg : g.derivative along = .ok dg) :
    (sub (const c) g).derivative along = .ok (sub (const 0) dg) := by
  have rules := subtracts_sub (const c) g
  generalize sub (const c) g = h at rules ⊢
  cases rules with
  | negated => contradiction
  | zero | same | constants =>
    obtain rfl := eq_zero_of_derivative_const hg
    exact derivative_const
  | collected =>
    unfold collect
    split
    · rename_i alike
      rw [derivative_eq_zero_of_coefficient alike.symm] at hg
      cases hg
      exact derivative_const
    · exact derivative_difference_eq_ok.2 ⟨_, _, derivative_const, hg, rfl⟩

/-- Adding a constant does not change the derivative. -/
theorem derivative_add_const (hf : f.derivative along = .ok df) :
    (add f (const c)).derivative along = .ok df := by
  -- adding zero comes first: cancelling it in `0 - r` would leave a negated tree
  by_cases zero : c = 0
  · rw [zero, add_zero_right, hf]
  have rules := adds_add f (const c)
  generalize add f (const c) = h at rules ⊢
  cases rules with
  | zeroLeft | constants | double =>
    obtain rfl := eq_zero_of_derivative_const hf
    exact derivative_const
  | zeroRight => contradiction
  | firstSummand rest =>
    obtain ⟨dl, dr, hl, hr, rfl⟩ := derivative_sum_eq_ok.1 hf
    obtain rfl := eq_zero_of_derivative_const hl
    rw [derivative_of_adds_const rest hr, add_zero_left]
  | secondSummand rest =>
    obtain ⟨dl, dr, hl, hr, rfl⟩ := derivative_sum_eq_ok.1 hf
    obtain rfl := eq_zero_of_derivative_const hr
    rw [derivative_of_adds_const rest hl, add_zero_right]
  | minuend l r =>
    obtain ⟨dl, dr, hl, hr, rfl⟩ := derivative_difference_eq_ok.1 hf
    obtain rfl := eq_zero_of_derivative_const hl
    exact derivative_const_sub (mul_ne_zero two_ne_zero zero) hr
  | subtrahend l r =>
    obtain ⟨dl, dr, hl, hr, rfl⟩ := derivative_difference_eq_ok.1 hf
    obtain rfl := eq_zero_of_derivative_const hr
    rw [hl, sub_zero_right]
  | collected =>
    unfold collect
    split
    · rename_i alike
      rw [derivative_eq_zero_of_coefficient alike] at hf
      cases hf
      rw [alike]
      exact derivative_const
    · exact derivative_sum_eq_ok.2 ⟨_, _, hf, derivative_const, add_zero_right df⟩

/-- The derivative of a sum is the sum of the derivatives where the two simplify alike. -/
theorem derivative_add (alike : PlainSum f g) (hf : f.derivative along = .ok df)
    (hg : g.derivative along = .ok dg) : (add f g).derivative along = .ok (add df dg) := by
  rcases alike with ⟨c, rfl⟩ | ⟨c, rfl⟩ | plain | ⟨rfl, bare⟩
  · obtain rfl := eq_zero_of_derivative_const hf
    rw [derivative_of_adds_const (adds_add ..) hg, add_zero_left]
  · obtain rfl := eq_zero_of_derivative_const hg
    rw [derivative_add_const hf, add_zero_right]
  · rw [plain]
    exact derivative_sum_eq_ok.2 ⟨df, dg, hf, hg, rfl⟩
  · cases hf.symm.trans hg
    rw [add_self, add_self]
    exact derivative_scale (.inr (.inr bare)) hf

end Trees

section Values

variable {R : Type} [CommRing R] {M : Interpretation R} {p : Axis → R} {along : Axis}
variable {f g h : Expr} {j k q : DualNumber R}

/-- The tree and its derivative have the components of the dual number as their values. -/
def Carries (M : Interpretation R) (p : Axis → R) (along : Axis) (f : Expr) (j : DualNumber R) :
    Prop :=
  M.value p f = some j.fst ∧ ∃ d, f.derivative along = .ok d ∧ M.value p d = some j.snd

/-- Every subtree has a value and a derivative with a value. -/
def Tangible (M : Interpretation R) (p : Axis → R) (along : Axis) (f : Expr) : Prop :=
  f.All fun s => ∃ j, Carries M p along s j

/-- The tree is canonical and tangible, and its value and that of its derivative are the components
of the dual number. -/
structure Settled (M : Interpretation R) (p : Axis → R) (along : Axis) (f : Expr)
    (j : DualNumber R) : Prop where
  canonical : f.Canonical
  tangible : Tangible M p along f
  carries : Carries M p along f j

/-- A canonical tree that has a tangent is settled, with the value and the slope it has. -/
theorem Tangible.settled (canonical : f.Canonical) (h : Tangible M p along f) :
    ∃ j, Settled M p along f j := by
  obtain ⟨j, hj⟩ := h.self
  exact ⟨j, canonical, h, hj⟩

namespace Settled

/-- The value of the derivative is the slope of the settled tree. -/
theorem slope {d : Expr} (h : Settled M p along f j) (hd : f.derivative along = .ok d) :
    M.value p d = some j.snd := by
  obtain ⟨-, -, -, d', hd', value⟩ := h
  cases hd.symm.trans hd'
  exact value

/-- A settled tree has one value and one slope. -/
theorem unique (hj : Settled M p along f j) (hk : Settled M p along f k) : j = k := by
  obtain ⟨-, -, value, d, hd, slope⟩ := hj
  exact jet_ext (Option.some.inj (value.symm.trans hk.carries.1))
    (Option.some.inj (slope.symm.trans (hk.slope hd)))

/-- The left operand of a settled tree is settled. -/
theorem lhs {op : Op} (h : Settled M p along (binary op f g) j) : ∃ k, Settled M p along f k :=
  Tangible.settled h.canonical.1 (all_binary.1 h.tangible).2.1

theorem rhs {op : Op} (h : Settled M p along (binary op f g) j) : ∃ k, Settled M p along g k :=
  Tangible.settled h.canonical.2.1 (all_binary.1 h.tangible).2.2

/-- An operation that is not folded on settled operands is settled. -/
theorem join {op : Op} (hf : Settled M p along f j) (hg : Settled M p along g k)
    (plain : op.apply f g = binary op f g) (self : Carries M p along (binary op f g) q) :
    Settled M p along (binary op f g) q where
  canonical := ⟨hf.canonical, hg.canonical, plain⟩
  tangible := all_binary.2 ⟨⟨q, self⟩, hf.tangible, hg.tangible⟩
  carries := self

end Settled

variable (M p along) in
theorem settled_const (c : Rat) : Settled M p along (const c) (dualNum M.num c) := by
  have self : Carries M p along (const c) (dualNum M.num c) := by
    refine ⟨rfl, _, derivative_const, ?_⟩
    rw [Interpretation.value_const, map_zero]
    rfl
  exact ⟨trivial, all_const.2 ⟨_, self⟩, self⟩

theorem carries_sum (L : M.Lawful) (hf : Carries M p along f j) (hg : Carries M p along g k) :
    Carries M p along (binary .add f g) (j + k) := by
  obtain ⟨hx, df, hdf, hdx⟩ := hf
  obtain ⟨hy, dg, hdg, hdy⟩ := hg
  exact ⟨Interpretation.value_join .add hx hy rfl, _,
    derivative_sum_eq_ok.2 ⟨df, dg, hdf, hdg, rfl⟩, L.value_add hdx hdy⟩

theorem carries_difference (L : M.Lawful) (hf : Carries M p along f j)
    (hg : Carries M p along g k) : Carries M p along (binary .sub f g) (j - k) := by
  obtain ⟨hx, df, hdf, hdx⟩ := hf
  obtain ⟨hy, dg, hdg, hdy⟩ := hg
  exact ⟨Interpretation.value_join .sub hx hy rfl, _,
    derivative_difference_eq_ok.2 ⟨df, dg, hdf, hdg, rfl⟩, L.value_sub hdx hdy⟩

theorem carries_multiple (L : M.Lawful) (c : Rat) (hf : Carries M p along f j) :
    Carries M p along (binary .mul (const c) f) (dualNum M.num c * j) := by
  obtain ⟨hx, df, hdf, hdx⟩ := hf
  refine ⟨Interpretation.value_join .mul rfl hx rfl, _, derivative_multiple hdf, ?_⟩
  rw [L.value_scale c hdx]
  simp

/-- The quotient of jets needs the denominator to be a unit. -/
theorem carries_quotient (L : M.Lawful) (hcf : f.Canonical) (hcg : g.Canonical)
    (hf : Carries M p along f j) (hg : Carries M p along g k) (unit : IsUnit k) (hq : q * k = j) :
    Carries M p along (binary .div f g) q := by
  obtain ⟨hx, df, hdf, hdx⟩ := hf
  obtain ⟨hy, dg, hdg, hdy⟩ := hg
  have numerator : HasJet M p along f df j := ⟨hcf, derivative_rules hdf, hx, hdx⟩
  have denominator : HasJet M p along g dg k := ⟨hcg, derivative_rules hdg, hy, hdy⟩
  refine ⟨?_, _, by rw [derivative, hdf, hdg]; rfl, numerator.quotient L denominator unit hq⟩
  have below := TrivSqZeroExt.isUnit_iff_isUnit_fst.1 unit
  exact Interpretation.value_join .div hx hy (L.div_iff.2 ⟨below, by rw [← hq]; rfl⟩)

/-- What a quotient carries is the quotient of what its operands carry. -/
theorem quotient_of_carries (L : M.Lawful) (hcf : f.Canonical) (hcg : g.Canonical)
    (hf : Settled M p along f j) (hg : Settled M p along g k)
    (h : Settled M p along (binary .div f g) q) : IsUnit k ∧ q * k = j := by
  obtain ⟨y, hy, joined⟩ := Interpretation.value_rhs hf.carries.1 h.carries.1
  cases hg.carries.1.symm.trans hy
  have unit := TrivSqZeroExt.isUnit_iff_isUnit_fst.2 (L.div_iff.1 joined).1
  obtain ⟨i, hi⟩ := unit.exists_left_inv
  have same : j * i * k = j := by rw [mul_assoc, hi, mul_one]
  -- what is carried is unique, so it is this quotient
  have quotient := carries_quotient L hcf hcg hf.carries hg.carries unit same
  cases h.unique ⟨h.canonical, h.tangible, quotient⟩
  exact ⟨unit, same⟩

/-- A power of constants is settled where it has a value, with no slope. -/
theorem settled_constPow (L : M.Lawful) {c r : Rat}
    (hv : M.pow (M.num c) (M.num r) = some j.fst) (slope : j.snd = 0) :
    Settled M p along (constPow c r) j := by
  have self : Carries M p along (constPow c r) j :=
    ⟨L.value_constPow hv, _, derivative_constPow, by
      rw [Interpretation.value_const, map_zero, slope]⟩
  refine ⟨canonical_constPow c r, ?_, self⟩
  fun_cases constPow c r with
  | case4 h0 h1 kept =>
    rw [constPow, if_neg h0, if_neg h1, if_neg kept] at self
    exact all_binary.2 ⟨⟨j, self⟩, (settled_const M p along c).tangible,
      (settled_const M p along r).tangible⟩
  | _ => exact (settled_const M p along _).tangible

/-- The constructors compute with what settled trees carry. -/
theorem computes_settled (L : M.Lawful) (p : Axis → R) (along : Axis) :
    Computes (dualNum M.num) (Settled M p along) where
  unique := Settled.unique
  const := settled_const M p along
  sum hf hg plain := hf.join hg plain (carries_sum L hf.carries hg.carries)
  difference hf hg plain := hf.join hg plain (carries_difference L hf.carries hg.carries)
  multiple {f c j} hf plain :=
    (settled_const M p along c).join hf (by simpa [Op.apply, mul] using plain)
      (carries_multiple L c hf.carries)
  quotient hf hg unit hq plain :=
    hf.join hg plain (carries_quotient L hf.canonical hg.canonical hf.carries hg.carries unit hq)
  of_sum h := by
    obtain ⟨j, hf⟩ := h.lhs
    obtain ⟨k, hg⟩ := h.rhs
    refine ⟨j, k, hf, hg, h.unique ⟨h.canonical, h.tangible, ?_⟩⟩
    exact carries_sum L hf.carries hg.carries
  of_difference h := by
    obtain ⟨j, hf⟩ := h.lhs
    obtain ⟨k, hg⟩ := h.rhs
    refine ⟨j, k, hf, hg, h.unique ⟨h.canonical, h.tangible, ?_⟩⟩
    exact carries_difference L hf.carries hg.carries
  of_multiple h := by
    obtain ⟨j, hf⟩ := h.rhs
    refine ⟨j, hf, h.unique ⟨h.canonical, h.tangible, ?_⟩⟩
    exact carries_multiple L _ hf.carries
  of_quotient h := by
    obtain ⟨j, hf⟩ := h.lhs
    obtain ⟨k, hg⟩ := h.rhs
    exact ⟨j, k, hf, hg, quotient_of_carries L hf.canonical hg.canonical hf hg h⟩
  absorbed {c r j} h := by
    obtain ⟨_, hr, power⟩ := Interpretation.value_rhs (Interpretation.value_const ..) h.carries.1
    cases hr
    have slope := h.slope derivative_surd
    rw [Interpretation.value_const, map_zero] at slope
    have one : M.pow (M.num c) (M.num 1) = some (M.num c) := by rw [map_one, L.pow_one]
    exact settled_constPow L (L.pow_add one power) (by simp [← Option.some.inj slope])

end Values

/-- The derivatives of a sum and of a multiple by a constant, for trees that are read from texts.
Where the sum or the multiple is plain, they are the sum and the multiple of the derivatives.
Everywhere else they have the same values, in the reals with any partial functions for the named
ones, at each point where the trees and the derivatives of their subtrees have values. -/
theorem derivative_linear {s t : List Char} {f g : Expr} (hf : build {} 3 s = .ok f)
    (hg : build {} 3 t = .ok g) (c : Rat) (along : Axis) :
    ∃ df dg ds dm, f.derivative along = .ok df ∧ g.derivative along = .ok dg ∧
      (add f g).derivative along = .ok ds ∧ (mul (const c) f).derivative along = .ok dm ∧
      (PlainSum f g → ds = add df dg) ∧ (PlainMultiple c f → dm = mul (const c) df) ∧
      ∀ (named : Kind → ℝ → Option ℝ) (p : Axis → ℝ), Tangible (reals named) p along f →
        (∃ x, (reals named).value p dm = some x ∧
          (reals named).value p (mul (const c) df) = some x) ∧
        (Tangible (reals named) p along g → ∃ x, (reals named).value p ds = some x ∧
          (reals named).value p (add df dg) = some x) := by
  -- Trees that are read are canonical and have no other variables than the three, so all four
  -- derivatives exist.
  obtain ⟨hcf, hwf⟩ := build_keeps (Context.bodies_empty _) (Context.bodies_empty _) hf
  obtain ⟨hcg, hwg⟩ := build_keeps (Context.bodies_empty _) (Context.bodies_empty _) hg
  obtain ⟨df, hdf⟩ := exists_derivative along hwf.finished
  obtain ⟨dg, hdg⟩ := exists_derivative along hwg.finished
  have H := hereditary_over fun i => ∃ a, Axis.ofPosition? i = some a
  obtain ⟨ds, hds⟩ := exists_derivative along (H.add hwf.finished hwg.finished)
  obtain ⟨dm, hdm⟩ := exists_derivative along (H.scale c hwf.finished)
  have product (h : Expr) : mul (const c) h = scale c h := by rw [mul]
  simp only [product]
  refine ⟨df, dg, ds, dm, hdf, hdg, hds, hdm, ?_, ?_, ?_⟩
  · intro plain
    exact Except.ok.inj (hds.symm.trans (derivative_add plain hdf hdg))
  · intro plain
    exact Except.ok.inj (hdm.symm.trans (derivative_scale plain hdf))
  · intro named p tangible
    have L := lawful_reals named
    have C := computes_settled L p along
    obtain ⟨j, hj⟩ := tangible.settled hcf
    refine ⟨⟨c * j.snd, ?_, L.value_scale c (hj.slope hdf)⟩, ?_⟩
    · rw [(C.scale c hj).slope hdm]
      simp
    · intro tangible'
      obtain ⟨k, hk⟩ := tangible'.settled hcg
      exact ⟨j.snd + k.snd, (C.add hj hk).slope hds, L.value_add (hj.slope hdf) (hk.slope hdg)⟩

theorem derivative_ln :
    (special .ln (var 0)).derivative .x = .ok (binary .div (const 1) (var 0)) := by
  have slope : (var 0).derivative .x = .ok (const 1) := by
    rw [derivative]
    rfl
  rw [derivative, slope]
  refine congrArg Except.ok ?_
  simp [outer, mul, div, scale_one]

/-- The derivatives of `2*ln(x) + ln(x)` and of `3*(2*ln(x))` at `x = 1`. -/
theorem derivative_linear_logarithms :
    let f := binary .mul (const 2) (special .ln (var 0))
    let g := special .ln (var 0)
    build {} 3 f.render = .ok f ∧ build {} 3 g.render = .ok g ∧
      ∃ df dg ds dm, f.derivative .x = .ok df ∧ g.derivative .x = .ok dg ∧
        (add f g).derivative .x = .ok ds ∧ (mul (const 3) f).derivative .x = .ok dm ∧
        (∃ x, exact.value (fun _ => 1) dm = some x ∧
          exact.value (fun _ => 1) (mul (const 3) df) = some x) ∧
        ∃ x, exact.value (fun _ => 1) ds = some x ∧
          exact.value (fun _ => 1) (add df dg) = some x := by
  intro f g
  have within : (var 0).Within 3 := ⟨le_rfl, by decide⟩
  have hf : build {} 3 f.render = .ok f :=
    build_render ⟨trivial, trivial, by simp [Op.apply, mul, scale]⟩ ⟨trivial, within⟩
      ⟨Literal.isWritable_two, trivial⟩
  have hg : build {} 3 g.render = .ok g := build_render trivial within trivial
  have coordinate : Carries exact (fun _ => 1) .x (var 0) (jet 1 1) :=
    ⟨rfl, const 1, by rw [derivative]; rfl, value_one⟩
  have self : Carries exact (fun _ => 1) .x g (jet (Real.log 1) (1 / 1)) := by
    have one : exact.value (fun _ => 1) (var 0) = some 1 := rfl
    exact ⟨value_named (k := .ln) one one_pos, _, derivative_ln,
      Interpretation.value_join .div value_one one (div_reals_eq_some.2 ⟨one_ne_zero, rfl⟩)⟩
  have logarithm : Tangible exact (fun _ => 1) .x g := by
    refine all_special.2 ⟨⟨_, self⟩, ?_⟩
    intro s hs
    obtain rfl := List.mem_singleton.1 hs
    exact ⟨_, coordinate⟩
  have double : Tangible exact (fun _ => 1) .x f :=
    all_binary.2 ⟨⟨_, carries_multiple (lawful_reals realFunction) 2 self⟩,
      (settled_const exact _ .x 2).tangible, logarithm⟩
  obtain ⟨df, dg, ds, dm, hdf, hdg, hds, hdm, -, -, values⟩ := derivative_linear hf hg 3 .x
  obtain ⟨product, sum⟩ := values realFunction _ double
  exact ⟨hf, hg, df, dg, ds, dm, hdf, hdg, hds, hdm, product, sum logarithm⟩

/-- Linearity fails on trees: the derivative of `2*ln(x) + ln(x)` is not the sum of the derivatives,
and that of `4*(x^2/2)` is not four times the derivative. -/
theorem derivative_not_linear :
    let f := binary .mul (const 2) (special .ln (var 0))
    let g := special .ln (var 0)
    let h := binary .div (binary .pow (var 0) (const 2)) (const 2)
    (build {} 3 f.render = .ok f ∧ build {} 3 g.render = .ok g ∧ build {} 3 h.render = .ok h) ∧
      (∃ df dg ds, f.derivative .x = .ok df ∧ g.derivative .x = .ok dg ∧
        (add f g).derivative .x = .ok ds ∧ ds ≠ add df dg) ∧
      ∃ dh dm, h.derivative .x = .ok dh ∧ (mul (const 4) h).derivative .x = .ok dm ∧
        dm ≠ mul (const 4) dh := by
  intro f g h
  have within : (var 0).Within 3 := ⟨le_rfl, by decide⟩
  have hf : f.Canonical := ⟨trivial, trivial, by simp [Op.apply, mul, scale]⟩
  have hh : h.Canonical := by
    refine ⟨⟨trivial, trivial, ?_⟩, trivial, ?_⟩
    · norm_num [Op.apply, power, powr]
    · simp [Op.apply, div]
  have two := Literal.isWritable_two
  refine ⟨⟨build_render hf ⟨trivial, within⟩ ⟨two, trivial⟩, build_render trivial within trivial,
    build_render hh ⟨⟨within, trivial⟩, trivial⟩ ⟨⟨trivial, two⟩, two⟩⟩, ?_, ?_⟩
  · have sum : add f g = binary .mul (const 3) g := by
      simp [f, g, add.eq_def, collect, coefficient, scale]
      norm_num
    refine ⟨_, _, _, derivative_multiple derivative_ln, derivative_ln,
      sum ▸ derivative_multiple derivative_ln, ?_⟩
    simp [scale, div, add.eq_def, collect, coefficient]
  · have product : mul (const 4) h =
        binary .div (binary .mul (const 4) (binary .pow (var 0) (const 2))) (const 2) := by
      simp [h, mul, scale, div]
    refine ⟨_, _, derivative_over_const derivative_square,
      product ▸ derivative_over_const (derivative_multiple derivative_square), ?_⟩
    have below : powr (const 2) 2 = const 4 := by
      rw [powr, constPow, if_neg (by norm_num), if_neg (by norm_num), if_pos (by norm_num),
        fractionPower_eq_zpow]
      norm_num
    have scaled : scale 2 (binary .mul (const 2) (var 0)) = binary .mul (const 4) (var 0) := by
      norm_num [scale]
    have scaledTwice : scale 2 (scale 4 (binary .mul (const 2) (var 0))) =
        binary .mul (const 16) (var 0) := by
      norm_num [scale]
    rw [below, scaled, scaledTwice]
    simp [div, mul, scale]

end Fluxion.Expr
