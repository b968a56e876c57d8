import Mathlib.Algebra.DualNumber
import Fluxion.Proofs.NamedFunctions
import Fluxion.Proofs.RealValue

/-!
# Jets

A jet is a value together with a derivative: a dual number over the reals. Jets are joined by the
rules of differentiation, so the ring of jets has the sum rule and the product rule built in, and
the quotient rule, the power rule and the chain rule are those of `jets.div`, `jets.pow` and
`jets.named`. A power has a jet where its base is positive, and where its exponent is a constant
integer that the base can bear.

The interpretation in jets is lawful, so the constructors keep jets: a simplified tree has the
derivative of the tree that it stands for, and not only its value.
-/

namespace Fluxion
set_option autoImplicit false

/-- The named functions on the reals. -/
noncomputable def realFunction (k : Kind) (u : ℝ) : Option ℝ :=
  open Classical in if k.DefinedAt u then some (k.function u) else none

/-- Trees over the reals, with the functions that they name. -/
noncomputable abbrev exact : Interpretation ℝ := reals realFunction

/-- A value and a derivative. -/
def jet {R : Type} (x x' : R) : DualNumber R := (x, x')

/-- The rational numbers among the dual numbers. -/
def dualNum {R : Type} [CommRing R] (num : ℚ →+* R) : ℚ →+* DualNumber R :=
  (TrivSqZeroExt.inlHom R R).comp num

/-- Where a power of jets is defined. -/
def JetPowDefined (u w : DualNumber ℝ) : Prop :=
  0 < u.fst ∨ w.snd = 0 ∧ ∃ n : ℤ, w.fst = n ∧ (u.fst ≠ 0 ∨ 0 ≤ n)

/-- Trees over the jets. -/
noncomputable def jets : Interpretation (DualNumber ℝ) where
  num := (TrivSqZeroExt.inlHom ℝ ℝ).comp exact.num
  e := jet (Real.exp 1) 0
  pi := jet Real.pi 0
  div u v :=
    open Classical in
    if v.fst = 0 then none
    else some (jet (u.fst / v.fst) ((u.snd * v.fst - u.fst * v.snd) / v.fst ^ 2))
  pow u w :=
    open Classical in
    if JetPowDefined u w then
      some (jet (u.fst ^ w.fst)
        (w.fst * u.fst ^ (w.fst - 1) * u.snd + u.fst ^ w.fst * Real.log u.fst * w.snd))
    else none
  named k u :=
    open Classical in
    if k.SmoothAt u.fst then some (jet (k.function u.fst) (k.slope u.fst * u.snd)) else none

@[simp] theorem fst_jet {R : Type} (x x' : R) : (jet x x').fst = x := rfl

@[simp] theorem snd_jet {R : Type} (x x' : R) : (jet x x').snd = x' := rfl

@[simp] theorem fst_dualNum {R : Type} [CommRing R] (num : ℚ →+* R) (c : ℚ) :
    (dualNum num c).fst = num c := rfl

@[simp] theorem snd_dualNum {R : Type} [CommRing R] (num : ℚ →+* R) (c : ℚ) :
    (dualNum num c).snd = 0 := rfl

@[simp] theorem fst_num_jets (c : ℚ) : (jets.num c).fst = c := rfl

@[simp] theorem snd_num_jets (c : ℚ) : (jets.num c).snd = 0 := rfl

/-- A jet is its value and its slope. -/
theorem jet_ext {R : Type} {u v : DualNumber R} (fst : u.fst = v.fst) (snd : u.snd = v.snd) :
    u = v :=
  TrivSqZeroExt.ext fst snd

section Laws

variable {u v w : DualNumber ℝ}

/-- The quotient rule. -/
theorem div_jets_eq_some :
    jets.div u v = some w ↔ v.fst ≠ 0 ∧
      w = jet (u.fst / v.fst) ((u.snd * v.fst - u.fst * v.snd) / v.fst ^ 2) := by
  simp only [jets]
  split
  · simp [*]
  · rename_i hv
    rw [Option.some.injEq, eq_comm]
    exact (and_iff_right hv).symm

theorem pow_jets_eq_some :
    jets.pow u w = some v ↔ JetPowDefined u w ∧ v = jet (u.fst ^ w.fst)
        (w.fst * u.fst ^ (w.fst - 1) * u.snd + u.fst ^ w.fst * Real.log u.fst * w.snd) := by
  simp only [jets]
  split <;> simp [*, eq_comm]

/-- The chain rule for a named function, where it is smooth. -/
theorem named_jets_eq_some {k : Kind} :
    jets.named k u = some v ↔ k.SmoothAt u.fst ∧
      v = jet (k.function u.fst) (k.slope u.fst * u.snd) := by
  simp only [jets]
  split <;> simp [*, eq_comm]

/-- The power rule for a constant exponent. -/
theorem pow_num_jets_eq_some {c : ℚ} :
    jets.pow u (jets.num c) = some v ↔
      (0 < u.fst ∨ ∃ n : ℤ, (c : ℝ) = n ∧ (u.fst ≠ 0 ∨ 0 ≤ n)) ∧
        v = jet (u.fst ^ (c : ℝ)) (c * u.fst ^ ((c : ℝ) - 1) * u.snd) := by
  rw [pow_jets_eq_some]
  simp [JetPowDefined]

theorem JetPowDefined.real (h : JetPowDefined u w) : PowDefined u.fst w.fst := by
  rcases h with pos | ⟨-, n, hn, bearing⟩
  · exact .inl pos
  · rw [hn]
    exact powDefined_intCast bearing

/-- A natural power of a jet is the repeated product. -/
theorem pow_natCast_jets (u : DualNumber ℝ) (n : ℕ) : jets.pow u (jets.num n) = some (u ^ n) := by
  rw [pow_num_jets_eq_some]
  refine ⟨.inr ⟨n, by simp, .inr (Int.natCast_nonneg n)⟩, ?_⟩
  apply jet_ext
  · simp [TrivSqZeroExt.fst_pow]
  · rw [TrivSqZeroExt.snd_pow]
    cases n with
    | zero => simp
    | succ n => simp [mul_assoc]

/-- Away from zero, the derivative of a power is a multiple of the power. -/
theorem pow_num_jets_of_ne_zero {c : ℚ} (hu : u.fst ≠ 0) :
    jets.pow u (jets.num c) = some v ↔ PowDefined u.fst c ∧
      v = jet (u.fst ^ (c : ℝ)) (u.fst ^ (c : ℝ) * (c * u.snd / u.fst)) := by
  rw [pow_num_jets_eq_some, Real.rpow_sub_one hu]
  refine and_congr ?_ ?_
  · constructor
    · rintro (pos | ⟨n, hn, -⟩)
      · exact .inl pos
      · rw [hn]
        exact powDefined_intCast (.inl hu)
    · rintro (pos | ⟨zero, -⟩ | ⟨neg, n, hn⟩)
      · exact .inl pos
      · exact absurd zero hu
      · exact .inr ⟨n, hn, .inl hu⟩
  · have same : (c : ℝ) * (u.fst ^ (c : ℝ) / u.fst) * u.snd =
        u.fst ^ (c : ℝ) * (c * u.snd / u.fst) := by ring
    rw [same]

/-- The powers of a jet at zero have natural exponents. -/
theorem exponent_of_fst_eq_zero {c : ℚ} (hu : u.fst = 0)
    (h : jets.pow u (jets.num c) = some v) : ∃ n : ℕ, c = n ∧ v = u ^ n := by
  obtain ⟨pos | ⟨n, hn, bearing⟩, -⟩ := pow_num_jets_eq_some.1 h
  · exact absurd hu pos.ne'
  · obtain ⟨n, rfl⟩ := Int.eq_ofNat_of_zero_le (bearing.resolve_left fun h => h hu)
    have integer : c = n := by exact_mod_cast hn
    refine ⟨n, integer, ?_⟩
    rw [integer, pow_natCast_jets] at h
    exact (Option.some.inj h).symm

theorem pow_add_jets {a b : ℚ} (hv : jets.pow u (jets.num a) = some v)
    (hw : jets.pow u (jets.num b) = some w) :
    jets.pow u (jets.num (a + b)) = some (v * w) := by
  by_cases hu : u.fst = 0
  · obtain ⟨m, rfl, rfl⟩ := exponent_of_fst_eq_zero hu hv
    obtain ⟨n, rfl, rfl⟩ := exponent_of_fst_eq_zero hu hw
    rw [← Nat.cast_add, pow_natCast_jets, pow_add]
  · rw [pow_num_jets_of_ne_zero hu] at hv hw ⊢
    obtain ⟨ha, rfl⟩ := hv
    obtain ⟨hb, rfl⟩ := hw
    obtain ⟨defined, sum⟩ := rpow_add_of_powDefined ha hb
    push_cast
    refine ⟨defined, jet_ext ?_ ?_⟩
    · simp [sum]
    · simp [sum]
      ring

/-- A power with the opposite exponent is the inverse, where the power is a unit. -/
theorem pow_neg_jets {c : ℚ} (hv : jets.pow u (jets.num c) = some v) (unit : IsUnit v) :
    ∃ w, jets.pow u (jets.num (-c)) = some w ∧ v * w = 1 := by
  have nonzero : v.fst ≠ 0 := (TrivSqZeroExt.isUnit_iff_isUnit_fst.1 unit).ne_zero
  by_cases hu : u.fst = 0
  · obtain ⟨n, rfl, rfl⟩ := exponent_of_fst_eq_zero hu hv
    have zero : n = 0 := by
      by_contra positive
      exact nonzero (by rw [TrivSqZeroExt.fst_pow, hu, zero_pow positive])
    subst zero
    exact ⟨1, by simpa using pow_natCast_jets u 0, by simp⟩
  · rw [pow_num_jets_of_ne_zero hu] at hv
    obtain ⟨hc, rfl⟩ := hv
    obtain ⟨defined, inverse⟩ := rpow_neg_of_powDefined hc nonzero
    refine ⟨_, (pow_num_jets_of_ne_zero hu).2 ⟨by exact_mod_cast defined, rfl⟩, jet_ext ?_ ?_⟩
    · simpa using inverse
    · simp
      ring

/-- The exponential of a jet. -/
theorem pow_e_jets (w : DualNumber ℝ) :
    jets.pow jets.e w = some (jet (Real.exp w.fst) (Real.exp w.fst * w.snd)) := by
  refine pow_jets_eq_some.2 ⟨.inl (Real.exp_pos 1), ?_⟩
  simp [jets, Real.exp_one_rpow]

/-- A power of a power of a positive base. -/
theorem pow_mul_jets {b c : ℚ} (positive : 0 < u.fst) (hv : jets.pow u (jets.num b) = some v)
    (hw : jets.pow v (jets.num c) = some w) : jets.pow u (jets.num (b * c)) = some w := by
  rw [pow_num_jets_of_ne_zero positive.ne'] at hv ⊢
  obtain ⟨-, rfl⟩ := hv
  have power : 0 < u.fst ^ (b : ℝ) := Real.rpow_pos_of_pos positive _
  rw [pow_num_jets_of_ne_zero (by exact power.ne')] at hw
  obtain ⟨-, rfl⟩ := hw
  rw [Rat.cast_mul, Real.rpow_mul positive.le]
  refine ⟨.inl positive, jet_ext rfl ?_⟩
  simp only [fst_jet, snd_jet]
  field_simp

theorem lawful_jets : jets.Lawful where
  div_iff {u v q} := by
    rw [div_jets_eq_some, TrivSqZeroExt.isUnit_iff_isUnit_fst, isUnit_iff_ne_zero]
    refine and_congr_right ?_
    intro hv
    constructor
    · rintro rfl
      apply jet_ext
      · simp [hv]
      · simp
        field_simp
        ring
    · rintro rfl
      apply jet_ext
      · simp [hv]
      · simp
        field_simp
        ring
  pow_natCast := pow_natCast_jets
  pow_add := pow_add_jets
  pow_neg := pow_neg_jets
  isUnit_of_pow_neg {u v n} hn h := by
    rw [TrivSqZeroExt.isUnit_iff_isUnit_fst, isUnit_iff_ne_zero]
    intro hu
    obtain ⟨m, hm, -⟩ := exponent_of_fst_eq_zero hu h
    have : (n : ℚ) = 0 := by
      have : (0 : ℚ) ≤ m := Nat.cast_nonneg m
      have : (0 : ℚ) ≤ n := Nat.cast_nonneg n
      linarith
    exact hn (by exact_mod_cast this)
  one_pow {w v} h := by
    obtain ⟨-, rfl⟩ := pow_jets_eq_some.1 h
    apply jet_ext <;> simp

end Laws

end Fluxion
