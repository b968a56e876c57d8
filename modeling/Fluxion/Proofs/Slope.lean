import Fluxion.Proofs.OuterDerivative

/-!
# The derivative has the right value

`slope` is the reference: the derivative of a tree at a point, computed from values by the textbook
rules. At a regular point of a canonical tree, the tree that `derivative` assembles is defined and
has the slope as its value (`value_derivative`).

The proof reads the tree in jets. A jet of the tree carries the slope (`value_jet`), and by
induction on the rules of differentiation the derivative has the second component of the jet as its
value (`value_of_differentiates`). The product, the quotient and the power rule are those of every
lawful interpretation (`HasJet`). The rule for a power over another base goes over to a new tree,
which may look quite different: but the constructors keep jets, so its jet is that of the power.
-/

namespace Fluxion.Expr
set_option autoImplicit false

/-- The derivative of a tree at a point along an axis, by the textbook rules. -/
noncomputable def slope (p : Axis → ℝ) (along : Axis) : Expr → Option ℝ
  | var i => (Axis.ofPosition? i).map fun a => if a = along then 1 else 0
  | e | pi | const _ => some 0
  | binary .add f g => do
    let df ← f.slope p along
    let dg ← g.slope p along
    return df + dg
  | binary .sub f g => do
    let df ← f.slope p along
    let dg ← g.slope p along
    return df - dg
  | binary .mul f g => do
    let u ← exact.value p f
    let v ← exact.value p g
    let df ← f.slope p along
    let dg ← g.slope p along
    return df * v + u * dg
  | binary .div f g => do
    let u ← exact.value p f
    let v ← exact.value p g
    let df ← f.slope p along
    let dg ← g.slope p along
    return (df * v - u * dg) / v ^ 2
  | binary .pow f (const c) => do
    let u ← exact.value p f
    let df ← f.slope p along
    return c * u ^ ((c : ℝ) - 1) * df
  | binary .pow f g => do
    let u ← exact.value p f
    let w ← exact.value p g
    let df ← f.slope p along
    let dg ← g.slope p along
    return u ^ w * (dg * Real.log u + w * df / u)
  | comp _ _ => none
  | special k a => do
    let u ← exact.value p a
    let da ← a.slope p along
    return k.slope u * da

/-- The point and the tree are in the domain of the textbook rules. -/
structure Regular (p : Axis → ℝ) (f : Expr) : Prop where
  /-- Every subtree is defined. -/
  defined : f.All fun s => ∃ v, exact.value p s = some v
  /-- The named functions are smooth at their arguments. -/
  smooth : f.All fun s => ∀ k a u, s = special k a → exact.value p a = some u → k.SmoothAt u
  /-- A base is positive unless the exponent is a constant integer. -/
  positive : f.All fun s => ∀ u w x, s = binary .pow u w → (∀ n : ℤ, w ≠ const n) →
    exact.value p u = some x → 0 < x
  /-- Within what the derivative takes roots of, even powers have nonnegative bases. -/
  guarded : f.Guarded p

/-- A point that is regular for a tree is regular for its subtrees. -/
theorem Regular.of_mem {p : Axis → ℝ} {f s : Expr} (h : Regular p f) (hs : s ∈ f.subtrees) :
    Regular p s where
  defined := all_of_mem h.defined hs
  smooth := all_of_mem h.smooth hs
  positive := all_of_mem h.positive hs
  guarded := all_of_mem h.guarded hs

/-- The point, moving along an axis. -/
def moving {R : Type} [Zero R] [One R] (p : Axis → R) (along : Axis) : Axis → DualNumber R :=
  fun a => jet (p a) (if a = along then 1 else 0)

variable {p : Axis → ℝ} {along : Axis} {f g : Expr}

section Jets

/-- The value of a tree is the first component of its jet. -/
theorem value_of_jet {j : DualNumber ℝ} (h : jets.value (moving p along) f = some j) :
    exact.value p f = some j.fst := by
  induction f generalizing j with
  | var i =>
    rw [Interpretation.value_var] at h ⊢
    obtain ⟨a, ha, rfl⟩ := Option.map_eq_some_iff.1 h
    rw [ha]
    rfl
  | e | pi | const =>
    cases h
    rfl
  | binary op l r ihl ihr =>
    obtain ⟨u, v, hl, hr, joined⟩ := Interpretation.value_binary_eq_some.1 h
    refine Interpretation.value_join op (ihl hl) (ihr hr) ?_
    cases op with
    | add | sub | mul =>
      cases joined
      rfl
    | div =>
      obtain ⟨nonzero, rfl⟩ := div_jets_eq_some.1 joined
      exact div_reals_eq_some.2 ⟨nonzero, rfl⟩
    | pow =>
      obtain ⟨defined, rfl⟩ := pow_jets_eq_some.1 joined
      exact pow_reals_eq_some.2 ⟨defined.real, rfl⟩
  | comp =>
    rw [Interpretation.value_comp] at h
    contradiction
  | special k a ih =>
    obtain ⟨u, ha, named⟩ := Interpretation.value_special_eq_some.1 h
    obtain ⟨smooth, rfl⟩ := named_jets_eq_some.1 named
    exact value_named (ih ha) smooth.defined

/-- The slope of a power by the rule for a varying exponent. -/
theorem slope_pow_varying (varying : g.isConst = false) :
    (binary .pow f g).slope p along = (do
      let u ← exact.value p f
      let w ← exact.value p g
      let df ← f.slope p along
      let dg ← g.slope p along
      return u ^ w * (dg * Real.log u + w * df / u)) := by
  cases g <;> first | rfl | contradiction

/-- The jet of a power with a constant exponent. -/
theorem pow_jet_const {x x' v : ℝ} {c : ℚ} (hv : exact.pow x (exact.num c) = some v)
    (positive : (∀ n : ℤ, c ≠ n) → 0 < x) :
    jets.pow (jet x x') (jets.num c) = some (jet v (c * x ^ ((c : ℝ) - 1) * x')) := by
  obtain ⟨defined, rfl⟩ := pow_reals_eq_some.1 hv
  refine pow_num_jets_eq_some.2 ⟨?_, rfl⟩
  by_cases integer : ∃ n : ℤ, c = n
  · obtain ⟨n, rfl⟩ := integer
    rcases defined with pos | ⟨zero, nonneg⟩ | ⟨neg, -⟩
    · exact .inl pos
    · exact .inr ⟨n, by simp, .inr (by simpa [num_reals] using nonneg)⟩
    · exact .inr ⟨n, by simp, .inl neg.ne⟩
  · exact .inl (positive fun n same => integer ⟨n, same⟩)

/-- The jet of a power with a positive base. -/
theorem pow_jet_varying {x x' w w' : ℝ} (positive : 0 < x) :
    jets.pow (jet x x') (jet w w') =
      some (jet (x ^ w) (x ^ w * (w' * Real.log x + w * x' / x))) := by
  refine pow_jets_eq_some.2 ⟨.inl positive, jet_ext rfl ?_⟩
  simp only [fst_jet, snd_jet, Real.rpow_sub_one positive.ne']
  ring

/-- At a regular point, the jet of a tree is its value and its slope. -/
theorem value_jet (along : Axis) (regular : Regular p f) {v : ℝ} (hv : exact.value p f = some v) :
    ∃ s, f.slope p along = some s ∧ jets.value (moving p along) f = some (jet v s) := by
  induction f generalizing v with
  | var i =>
    rw [Interpretation.value_var] at hv ⊢
    obtain ⟨a, ha, rfl⟩ := Option.map_eq_some_iff.1 hv
    refine ⟨if a = along then 1 else 0, ?_, ?_⟩
    · rw [slope, ha]
      rfl
    · rw [ha]
      rfl
  | e | pi | const =>
    cases hv
    exact ⟨0, rfl, rfl⟩
  | binary op l r ihl ihr =>
    obtain ⟨x, y, hx, hy, joined⟩ := Interpretation.value_binary_eq_some.1 hv
    obtain ⟨x', hx', jx⟩ := ihl (regular.of_mem (lhs_mem_subtrees ..)) hx
    obtain ⟨y', hy', jy⟩ := ihr (regular.of_mem (rhs_mem_subtrees ..)) hy
    have join {z : DualNumber ℝ} := Interpretation.value_join op jx jy (v := z)
    cases op with
    | add =>
      cases joined
      exact ⟨x' + y', by rw [slope, hx', hy']; rfl, join rfl⟩
    | sub =>
      cases joined
      exact ⟨x' - y', by rw [slope, hx', hy']; rfl, join rfl⟩
    | mul =>
      cases joined
      refine ⟨x' * y + x * y', by rw [slope, hx', hy', hx, hy]; rfl, join ?_⟩
      refine congrArg some (jet_ext rfl ?_)
      simp
      ring
    | div =>
      obtain ⟨nonzero, rfl⟩ := div_reals_eq_some.1 joined
      refine ⟨(x' * y - x * y') / y ^ 2, by rw [slope, hx', hy', hx, hy]; rfl, join ?_⟩
      exact div_jets_eq_some.2 ⟨nonzero, rfl⟩
    | pow =>
      have positive := regular.positive.self l r x rfl
      -- A constant exponent may have a negative base, and a varying one needs a positive base.
      cases hr : r.isConst with
      | true =>
        obtain ⟨c, rfl⟩ : ∃ c, r = const c := by
          cases r <;> first | contradiction | exact ⟨_, rfl⟩
        cases hy
        cases jy
        refine ⟨c * x ^ ((c : ℝ) - 1) * x', by rw [slope, hx, hx']; rfl, join ?_⟩
        refine pow_jet_const joined fun fractional => positive (fun n same => ?_) hx
        cases same
        exact fractional n rfl
      | false =>
        obtain ⟨defined, rfl⟩ := pow_reals_eq_some.1 joined
        have base : 0 < x := positive (fun n same => by rw [same] at hr; contradiction) hx
        exact ⟨x ^ y * (y' * Real.log x + y * x' / x),
          by rw [slope_pow_varying hr, hx, hy, hx', hy']; rfl, join (pow_jet_varying base)⟩
  | comp =>
    rw [Interpretation.value_comp] at hv
    contradiction
  | special k a ih =>
    obtain ⟨u, hu, named⟩ := Interpretation.value_special_eq_some.1 hv
    obtain ⟨u', hu', ju⟩ := ih (regular.of_mem (arg_mem_subtrees ..)) hu
    have smooth := regular.smooth.self k a u rfl hu
    have same : k.function u = v := by
      have := (value_named hu smooth.defined).symm.trans hv
      exact Option.some.inj this
    subst same
    refine ⟨k.slope u * u', by rw [slope, hu, hu']; rfl, ?_⟩
    exact Interpretation.value_special_eq_some.2 ⟨_, ju, named_jets_eq_some.2 ⟨smooth, rfl⟩⟩

/-- A power of `e` to a multiple of a logarithm is a power of its argument. -/
theorem pow_jet_of_log {u y v : DualNumber ℝ} {c : ℚ} (log : jets.named .ln u = some y)
    (hv : jets.pow jets.e (jets.num c * y) = some v) :
    0 < u.fst ∧ jets.pow u (jets.num c) = some v := by
  obtain ⟨smooth, rfl⟩ := named_jets_eq_some.1 log
  have positive : 0 < u.fst := smooth
  have power : Real.exp (c * Real.log u.fst) = u.fst ^ (c : ℝ) := by
    rw [Real.rpow_def_of_pos positive, mul_comm]
  rw [pow_e_jets] at hv
  cases hv
  refine ⟨positive, (pow_num_jets_of_ne_zero positive.ne').2 ⟨.inl positive, ?_⟩⟩
  apply jet_ext
  · simp [Kind.function, power]
  · simp [Kind.function, Kind.slope, power]
    left
    ring

/-- A power of `e` has the jet of the plain power, even where it undoes a logarithm. -/
theorem jet_power_e (canonical : g.Canonical) (rooted : g.RootedLogs p) {w v : DualNumber ℝ}
    (hg : jets.value (moving p along) g = some w) (hv : jets.pow jets.e w = some v) :
    jets.value (moving p along) (power .e g) = some v := by
  have L := lawful_jets
  fun_cases power .e g with
  | case1 r =>
    cases hg
    exact L.value_powr trivial rfl hv fun same _ => by contradiction
  | case2 => contradiction
  | case3 a =>
    obtain ⟨u, ha, log⟩ := Interpretation.value_special_eq_some.1 hg
    rw [← one_mul w, ← map_one jets.num] at hv
    obtain ⟨-, power⟩ := pow_jet_of_log log hv
    rw [map_one, L.pow_one] at power
    rw [ha, power]
  | case4 c a =>
    obtain ⟨y, hy, product⟩ := Interpretation.value_rhs (Interpretation.value_const ..) hg
    obtain ⟨u, ha, log⟩ := Interpretation.value_special_eq_some.1 hy
    cases product
    obtain ⟨positive, power⟩ := pow_jet_of_log log hv
    refine L.value_powr canonical.2.1 ha power ?_
    intro t k x same hx
    subst same
    obtain ⟨_, hk, inner⟩ := Interpretation.value_rhs hx ha
    cases hk
    have base : (binary .pow t (const k)).Rooted p := rooted _ (rhs_mem_subtrees ..) _ rfl
    obtain ⟨defined, rfl⟩ := pow_jets_eq_some.1 inner
    have inReals : exact.pow x.fst (exact.num k) = some (x.fst ^ (k : ℝ)) :=
      pow_reals_eq_some.2 ⟨defined.real, rfl⟩
    have pos := base.base_pos canonical.2.1 (value_of_jet hx) inReals positive
    exact pow_mul_jets pos inner power
  | case5 | case6 => exact Interpretation.value_join .pow rfl hg hv

end Jets

/-- What the induction on the rules of differentiation needs of a tree. -/
structure Ready (p : Axis → ℝ) (f : Expr) : Prop where
  canonical : f.Canonical
  guarded : f.Guarded p
  positive : f.All (PositiveBase p)

namespace Ready

theorem of_regular (canonical : f.Canonical) (regular : Regular p f) : Ready p f where
  canonical := canonical
  guarded := regular.guarded
  positive := regular.positive.mono fun s positive u w x same varying =>
    positive u w x same fun n h => by rw [h] at varying; contradiction

variable {op : Op} {k : Kind}

theorem lhs (h : Ready p (binary op f g)) : Ready p f :=
  ⟨h.canonical.1, (hereditary_guarded p).lhs h.guarded, (hereditary_positiveBase p).lhs h.positive⟩

theorem rhs (h : Ready p (binary op f g)) : Ready p g :=
  ⟨h.canonical.2.1, (hereditary_guarded p).rhs h.guarded,
    (hereditary_positiveBase p).rhs h.positive⟩

theorem arg (h : Ready p (special k f)) : Ready p f :=
  ⟨h.canonical, (hereditary_guarded p).arg h.guarded, (hereditary_positiveBase p).arg h.positive⟩

/-- The power over the base `e` that replaces a varying power. -/
theorem overBaseE (h : Ready p (binary .pow f g)) : Ready p (power .e (mul g (special .ln f))) where
  canonical := stable_canonical.overBaseE h.canonical
  guarded := by
    have H := hereditary_guarded p
    have base : Guarded p .e := fun s hs => by
      obtain rfl := List.mem_singleton.1 hs
      exact fun h => h.elim
    have log : (special .ln f).Guarded p :=
      all_special.2 ⟨fun h => by rcases h with h | h <;> contradiction, h.lhs.guarded⟩
    have exponent := H.mul h.rhs.guarded log
    exact H.power base exponent (all_binary.2 ⟨fun h => absurd rfl h.1, base, exponent⟩)
  positive := by
    have H := hereditary_positiveBase p
    have base : All (PositiveBase p) .e := fun s hs => by
      obtain rfl := List.mem_singleton.1 hs
      exact fun _ _ _ h => nomatch h
    have log : All (PositiveBase p) (special .ln f) :=
      all_special.2 ⟨fun _ _ _ h => (nomatch h), h.lhs.positive⟩
    have exponent := H.mul h.rhs.positive log
    refine H.power base exponent (all_binary.2 ⟨?_, base, exponent⟩)
    intro u w x same _ hx
    cases same
    cases hx
    exact Real.exp_pos 1

end Ready

/-- The power over the base `e` that replaces a varying power has its jet. -/
theorem jet_overBaseE (ready : Ready p (binary .pow f g)) (varying : g.isConst = false)
    (other : f ≠ .e) {j : DualNumber ℝ}
    (hj : jets.value (moving p along) (binary .pow f g) = some j) :
    jets.value (moving p along) (power .e (mul g (special .ln f))) = some j := by
  obtain ⟨u, w, hu, hw, power⟩ := Interpretation.value_binary_eq_some.1 hj
  have positive : 0 < u.fst := ready.positive.self f g _ rfl varying (value_of_jet hu)
  have rooted := ready.guarded.self ⟨other, varying⟩
  have base : f.Rooted p := (additive_rooted p).lhs rooted
  have exponentRooted : g.Rooted p := (additive_rooted p).rhs rooted
  have log : jets.value (moving p along) (special .ln f) =
      some (jet (Real.log u.fst) (1 / u.fst * u.snd)) :=
    Interpretation.value_special_eq_some.2 ⟨u, hu, named_jets_eq_some.2 ⟨positive, rfl⟩⟩
  have call : (special .ln f).Canonical := ready.lhs.canonical
  have exponent := lawful_jets.value_mul ready.rhs.canonical call hw log
  have logRooted : (special .ln f).Rooted p := rooted_special base
  have logs := (multiplicative_rootedLogs p).mul exponentRooted.logs logRooted.logs
  refine jet_power_e (canonical_mul ready.rhs.canonical call) logs exponent ?_
  obtain ⟨-, rfl⟩ := pow_jets_eq_some.1 power
  rw [pow_e_jets]
  refine congrArg some (jet_ext ?_ ?_)
  · simp [Real.rpow_def_of_pos positive, mul_comm]
  · simp [Real.rpow_sub_one positive.ne', Real.rpow_def_of_pos positive]
    ring_nf

/-- The power that is left after differentiating a power. -/
theorem value_powr_pred {c : ℚ} {u j : DualNumber ℝ}
    (canonical : (binary .pow f (const c)).Canonical)
    (hu : jets.value (moving p along) f = some u) (hj : jets.pow u (jets.num c) = some j) :
    exact.value p (powr f (c - 1)) = some (u.fst ^ ((c : ℝ) - 1)) := by
  have nonzero := canonical.exponent_ne_zero
  have power : exact.pow u.fst (exact.num (c - 1)) = some (u.fst ^ ((c : ℝ) - 1)) := by
    rw [pow_reals_eq_some, num_reals, Rat.cast_sub, Rat.cast_one]
    refine ⟨?_, rfl⟩
    obtain ⟨pos | ⟨n, integer, bearing⟩, -⟩ := pow_num_jets_eq_some.1 hj
    · exact .inl pos
    · have integer : c = n := by exact_mod_cast integer
      subst integer
      have nonzero : n ≠ 0 := by exact_mod_cast nonzero
      have := powDefined_intCast (u := u.fst) (n := n - 1) (bearing.imp_right (by omega))
      exact_mod_cast this
  exact (lawful_reals _).value_powr_base canonical (value_of_jet hu) power

/-- A variable along an axis has a position of that axis. -/
theorem exists_of_isVariable (h : f.isVariable along = true) :
    ∃ i, f = var i ∧ Axis.ofPosition? i = some along := by
  cases f with
  | var i => exact ⟨i, rfl, by simpa [isVariable] using h⟩
  | _ => contradiction

/-- A canonical tree and its derivative have the components of a dual number as their values. -/
structure HasJet {R : Type} [CommRing R] (M : Interpretation R) (q : Axis → R) (along : Axis)
    (f d : Expr) (u : DualNumber R) : Prop where
  canonical : f.Canonical
  rules : Differentiates along f d
  value : M.value q f = some u.fst
  slope : M.value q d = some u.snd

namespace HasJet

variable {R : Type} [CommRing R] {M : Interpretation R} {q : Axis → R} {df dg : Expr}
variable {u v w : DualNumber R}

theorem derivative_canonical (hf : HasJet M q along f df u) : df.Canonical :=
  stable_canonical.of_differentiates hf.canonical hf.rules

/-- The product rule. -/
theorem product (L : M.Lawful) (hf : HasJet M q along f df u) (hg : HasJet M q along g dg v) :
    M.value q (add (mul df g) (mul f dg)) = some (u * v).snd := by
  have left := L.value_mul hf.derivative_canonical hg.canonical hf.slope hg.value
  have right := L.value_mul hf.canonical hg.derivative_canonical hf.value hg.slope
  rw [L.value_add left right, DualNumber.snd_mul, add_comm]

/-- The quotient rule. -/
theorem quotient (L : M.Lawful) (hf : HasJet M q along f df u) (hg : HasJet M q along g dg v)
    (unit : IsUnit v) (hw : w * v = u) :
    M.value q (div (sub (mul df g) (mul f dg)) (powr g 2)) = some w.snd := by
  have left := L.value_mul hf.derivative_canonical hg.canonical hf.slope hg.value
  have right := L.value_mul hf.canonical hg.derivative_canonical hf.value hg.slope
  have square := L.value_square hg.canonical hg.value
  have below := TrivSqZeroExt.isUnit_iff_isUnit_fst.1 unit
  refine L.value_div (L.value_sub left right) square (L.div_iff.2 ⟨below.mul below, ?_⟩)
  rw [← hw, TrivSqZeroExt.fst_mul, DualNumber.snd_mul]
  ring

/-- The rule for a power with a constant exponent. -/
theorem power (L : M.Lawful) {c : ℚ} {y : R} (hf : HasJet M q along f df u)
    (rest : M.value q (powr f (c - 1)) = some y) :
    M.value q (mul (mul df (const c)) (powr f (c - 1))) = some (u.snd * M.num c * y) := by
  have constant : (const c).Canonical := trivial
  have factor := L.value_mul hf.derivative_canonical constant hf.slope
    (Interpretation.value_const M q c)
  exact L.value_mul (canonical_mul hf.derivative_canonical constant)
    (canonical_powr (c - 1) hf.canonical) factor rest

end HasJet

/-- What the rules of differentiation make of a tree has the second component of its jet as its
value. -/
theorem value_of_differentiates {d : Expr} (rules : Differentiates along f d)
    (ready : Ready p f) {j : DualNumber ℝ} (hj : jets.value (moving p along) f = some j) :
    exact.value p d = some j.snd := by
  have L := lawful_reals realFunction
  have C := stable_canonical
  -- By induction on the rules, not on the tree: the last rule differentiates a tree that is no
  -- part of it.
  induction rules generalizing j with
  | @var i a ha =>
    rw [Interpretation.value_var, ha] at hj
    cases hj
    rw [Interpretation.value_const]
    by_cases same : a = along <;> simp [moving, same]
  | e | pi | const =>
    cases hj
    rw [Interpretation.value_const, map_zero]
    rfl
  | add hf hg ihf ihg =>
    obtain ⟨u, v, hu, hv, joined⟩ := Interpretation.value_binary_eq_some.1 hj
    cases joined
    exact L.value_add (ihf ready.lhs hu) (ihg ready.rhs hv)
  | sub hf hg ihf ihg =>
    obtain ⟨u, v, hu, hv, joined⟩ := Interpretation.value_binary_eq_some.1 hj
    cases joined
    exact L.value_sub (ihf ready.lhs hu) (ihg ready.rhs hv)
  | mul hf hg ihf ihg =>
    obtain ⟨u, v, hu, hv, joined⟩ := Interpretation.value_binary_eq_some.1 hj
    cases joined
    exact HasJet.product L ⟨ready.lhs.canonical, hf, value_of_jet hu, ihf ready.lhs hu⟩
      ⟨ready.rhs.canonical, hg, value_of_jet hv, ihg ready.rhs hv⟩
  | div hf hg ihf ihg =>
    obtain ⟨u, v, hu, hv, joined⟩ := Interpretation.value_binary_eq_some.1 hj
    obtain ⟨unit, quotient⟩ := lawful_jets.div_iff.1 joined
    exact HasJet.quotient L ⟨ready.lhs.canonical, hf, value_of_jet hu, ihf ready.lhs hu⟩
      ⟨ready.rhs.canonical, hg, value_of_jet hv, ihg ready.rhs hv⟩ unit quotient
  | powVariable c self =>
    obtain ⟨u, hu, joined⟩ := Interpretation.value_lhs (Interpretation.value_const ..) hj
    obtain ⟨i, rfl, found⟩ := exists_of_isVariable self
    have power := value_powr_pred ready.canonical hu joined
    have constant : (const c).Canonical := trivial
    have product := L.value_mul constant (canonical_powr (c - 1) ready.lhs.canonical)
      (Interpretation.value_const exact p c) power
    refine product.trans (congrArg some ?_)
    rw [Interpretation.value_var, found] at hu
    cases hu
    obtain ⟨-, rfl⟩ := pow_num_jets_eq_some.1 joined
    simp [moving]
  | powConst c hf ih =>
    obtain ⟨u, hu, joined⟩ := Interpretation.value_lhs (Interpretation.value_const ..) hj
    have power := value_powr_pred ready.canonical hu joined
    have inner : HasJet exact p along _ _ u :=
      ⟨ready.lhs.canonical, hf, value_of_jet hu, ih ready.lhs hu⟩
    refine (inner.power L power).trans (congrArg some ?_)
    obtain ⟨-, rfl⟩ := pow_num_jets_eq_some.1 joined
    rw [snd_jet, num_reals]
    ring
  | powE varying hg ih =>
    obtain ⟨w, hw, joined⟩ := Interpretation.value_rhs (Interpretation.value_e ..) hj
    have product := L.value_mul (C.of_differentiates ready.rhs.canonical hg) ready.canonical
      (ih ready.rhs hw) (value_of_jet hj)
    refine product.trans (congrArg some ?_)
    have power := (pow_e_jets w).symm.trans joined
    cases power
    exact mul_comm ..
  | pow varying other hd ih => exact ih ready.overBaseE (jet_overBaseE ready varying other hj)
  | special k ha ih =>
    obtain ⟨u, hu, named⟩ := Interpretation.value_special_eq_some.1 hj
    obtain ⟨smooth, rfl⟩ := named_jets_eq_some.1 named
    have canonical := ready.arg.canonical
    have outer := value_outer canonical
      (fun takesRoot => (all_special.1 (ready.guarded.self takesRoot)).2) (value_of_jet hu) smooth
    have product := L.value_mul (C.of_differentiates canonical ha) (C.outer k canonical)
      (ih ready.arg hu) outer
    refine product.trans (congrArg some ?_)
    exact mul_comm ..

/-- A tree with a value is finished. -/
theorem finished_of_value {R : Type} [CommRing R] {M : Interpretation R} {q : Axis → R} {v : R}
    (hv : M.value q f = some v) : f.Finished := by
  induction f generalizing v with
  | var i =>
    rw [Interpretation.value_var] at hv
    obtain ⟨a, found, -⟩ := Option.map_eq_some_iff.1 hv
    exact ⟨a, found⟩
  | e | pi | const => trivial
  | binary op l r ihl ihr =>
    obtain ⟨a, b, ha, hb, -⟩ := Interpretation.value_binary_eq_some.1 hv
    exact ⟨ihl ha, ihr hb⟩
  | comp =>
    rw [Interpretation.value_comp] at hv
    contradiction
  | special k a ih =>
    obtain ⟨u, hu, -⟩ := Interpretation.value_special_eq_some.1 hv
    exact ih hu

/-- At a regular point of a canonical tree, the derivative is defined and has the value that the
textbook rules give. -/
theorem value_derivative (p : Axis → ℝ) (along : Axis) {f : Expr} (canonical : f.Canonical)
    (regular : Regular p f) :
    ∃ d s, f.derivative along = .ok d ∧ f.slope p along = some s ∧ exact.value p d = some s := by
  obtain ⟨v, hv⟩ := regular.defined.self
  obtain ⟨d, hd⟩ := exists_derivative along (finished_of_value hv)
  obtain ⟨s, hs, jet⟩ := value_jet along regular hv
  refine ⟨d, s, hd, hs, ?_⟩
  exact value_of_differentiates (derivative_rules hd) (.of_regular canonical regular) jet

/-- The derivative of `x ^ asinh(x^2)` along `x`, at `x = 2`. -/
theorem value_derivative_asinh_power :
    let p : Axis → ℝ := fun _ => 2
    let f := binary .pow (var 0) (special .asinh (binary .pow (var 0) (const 2)))
    ∃ d s, f.derivative .x = .ok d ∧ f.slope p .x = some s ∧ exact.value p d = some s := by
  intro p f
  have square : exact.value p (binary .pow (var 0) (const 2)) = some (2 ^ (2 : ℝ)) :=
    Interpretation.value_join .pow rfl rfl
      (pow_reals_eq_some.2 ⟨.inl two_pos, by norm_num [num_reals, p]⟩)
  have exponent := value_named (k := .asinh) square trivial
  have power := Interpretation.value_join .pow (l := var 0) rfl exponent
    (pow_reals_eq_some.2 ⟨.inl two_pos, rfl⟩)
  have canonical : f.Canonical := by
    refine ⟨trivial, ⟨trivial, trivial, ?_⟩, ?_⟩
    · norm_num [Op.apply, Expr.power, powr]
    · simp [Op.apply, Expr.power]
  have members : ∀ s ∈ f.subtrees,
      s = binary .pow (var 0) (special .asinh (binary .pow (var 0) (const 2))) ∨ s = var 0 ∨
      s = special .asinh (binary .pow (var 0) (const 2)) ∨
      s = binary .pow (var 0) (const 2) ∨ s = const 2 := by
    simp [f, subtrees]
  have bases (u w : Expr) (h : binary .pow u w ∈ f.subtrees) : u = var 0 := by
    obtain h | h | h | h | h := members _ h <;>
      first
      | exact (binary.inj h).2.1
      | contradiction
  refine value_derivative p .x canonical ⟨fun s hs => ?_, fun s hs => ?_, fun s hs => ?_,
    fun s hs => ?_⟩
  · rcases members s hs with rfl | rfl | rfl | rfl | rfl
    · exact ⟨_, power⟩
    · exact ⟨2, rfl⟩
    · exact ⟨_, exponent⟩
    · exact ⟨_, square⟩
    · exact ⟨_, rfl⟩
  · rintro k a u rfl -
    obtain h | h | h | h | h := members _ hs <;> cases h
    trivial
  · rintro u w x rfl - hx
    obtain rfl := bases u w hs
    cases hx
    exact two_pos
  · rintro - t ht u n x rfl hx
    obtain rfl := bases u _ (subtrees_trans ht hs)
    cases hx
    exact two_pos.le

end Fluxion.Expr
