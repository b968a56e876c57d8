import Mathlib.LinearAlgebra.Matrix.Charpoly.Coeff
import Fluxion.Proofs.Determinants
import Fluxion.Proofs.PolynomialRing

/-!
# Characteristic polynomials

The determinant of `A - X` is the characteristic polynomial of the theory up to its sign
(`det_characteristicEntries`), so its degree and its two highest coefficients are known, and the
transpose has the same one. The calculator computes it for two and three rows of exact numbers
(`isPolynomial_characteristicOf`), as it computes the determinant of any polynomials over the
fractions (`isPolynomial_determinantOf`).
-/

open scoped Polynomial

namespace Fluxion
set_option autoImplicit false

namespace Matrix

variable {n : ℕ}

/-- The polynomials whose determinant is the characteristic polynomial. -/
noncomputable def characteristicEntries (A : Fin n → Fin n → ℚ) (i j : Fin n) : ℚ[X] :=
  if i = j then Polynomial.C (A i j) - Polynomial.X else Polynomial.C (A i j)

variable (A : Fin n → Fin n → ℚ)

/-- Up to its sign it is the characteristic polynomial of the theory, which is monic. -/
theorem det_characteristicEntries :
    (Matrix.of (characteristicEntries A)).det =
      Polynomial.C ((-1) ^ n) * (Matrix.of A).charpoly := by
  have opposite : Matrix.of (characteristicEntries A) = -(Matrix.of A).charmatrix := by
    ext1 i j
    rw [Matrix.neg_apply, Matrix.charmatrix_apply, Matrix.diagonal_apply, neg_sub, Matrix.of_apply,
      Matrix.of_apply, characteristicEntries]
    split
    · rfl
    · rw [sub_zero]
  rw [opposite, Matrix.det_neg, Fintype.card_fin, ← Matrix.charpoly]
  simp

theorem eval_det (P : Fin n → Fin n → ℚ[X]) (x : ℚ) :
    (Matrix.of P).det.eval x = (Matrix.of fun i j => (P i j).eval x).det :=
  RingHom.map_det (Polynomial.evalRingHom x) (Matrix.of P)

/-- At every fraction the determinant of the entries is that of the matrix less its multiple of the
identity. -/
theorem eval_characteristicEntries (x : ℚ) :
    (Matrix.of (characteristicEntries A)).det.eval x = (Matrix.of A - x • 1).det := by
  rw [eval_det]
  congr 1
  ext1 i j
  rw [Matrix.sub_apply, Matrix.smul_apply, Matrix.one_apply, Matrix.of_apply, Matrix.of_apply,
    characteristicEntries]
  split <;> simp

/-- The degree is the number of rows. -/
theorem natDegree_characteristicEntries :
    (Matrix.of (characteristicEntries A)).det.natDegree = n := by
  rw [det_characteristicEntries, Polynomial.natDegree_C_mul (by simp),
    Matrix.charpoly_natDegree_eq_dim, Fintype.card_fin]

/-- The leading coefficient is one or minus one. -/
theorem leadingCoeff_characteristicEntries :
    (Matrix.of (characteristicEntries A)).det.coeff n = (-1) ^ n := by
  have monic := (Matrix.charpoly_monic (Matrix.of A)).coeff_natDegree
  rw [Matrix.charpoly_natDegree_eq_dim, Fintype.card_fin] at monic
  rw [det_characteristicEntries, Polynomial.coeff_C_mul, monic, mul_one]

/-- The coefficient below the leading one is the trace, up to its sign. -/
theorem coeff_characteristicEntries (positive : 0 < n) :
    (Matrix.of (characteristicEntries A)).det.coeff (n - 1) =
      (-1) ^ (n - 1) * (Matrix.of A).trace := by
  have : Nonempty (Fin n) := ⟨⟨0, positive⟩⟩
  have sign : (-1 : ℚ) ^ n = (-1) ^ (n - 1) * -1 := by
    rw [← pow_succ, Nat.sub_add_cancel positive]
  rw [det_characteristicEntries, Polynomial.coeff_C_mul, Matrix.trace_eq_neg_charpoly_coeff,
    Fintype.card_fin, sign]
  ring

/-- The transpose has the same characteristic polynomial. -/
theorem det_characteristicEntries_transpose :
    (Matrix.of (characteristicEntries fun i j => A j i)).det =
      (Matrix.of (characteristicEntries A)).det := by
  rw [det_characteristicEntries, det_characteristicEntries, ← Matrix.charpoly_transpose]
  rfl

end Matrix

namespace Calculator.Value

variable {n : ℕ} {v : Fin n → Fin n → Value} {A : Fin n → Fin n → ℚ}

/-- The square matrix of some entries, as the command makes it. -/
def matrixOf (v : Fin n → Fin n → Value) : Outcome Value :=
  MatrixCommand.run .matrix [.list (Matrix.rowMajor v), intValue n, intValue n]

/-- The trace of a matrix, as the command gives it. -/
def traceOf (m : Value) : Outcome Value := MatrixCommand.run .trace [m]

/-- The determinant of a matrix, as the command gives it. -/
def determinantOf (m : Value) : Outcome Value := MatrixCommand.run .determinant [m]

/-- The characteristic polynomial of a matrix, as the command gives it. -/
def characteristicOf (m : Value) : Outcome Value := MatrixCommand.run .characteristicPolynomial [m]

/-- The value that the matrix of some entries is. -/
def squareMatrix (v : Fin n → Fin n → Value) : Value :=
  matrix (Matrix.rowMajor v) (intValue n) (intValue n)

theorem matrixOf_eq (v : Fin n → Fin n → Value) : matrixOf v = .ok (squareMatrix v) := by
  have length : same (intValue (Matrix.rowMajor v).length) (intValue (n * n)) = true := by
    refine (same_iff rfl rfl).2 ?_
    simp [Matrix.rowMajor]
  have made : Table.ofList (Matrix.rowMajor v) (intValue n) (intValue n) =
      .ok ⟨Matrix.rowMajor v, intValue n, intValue n⟩ := by
    have product : join .mul (intValue n) (intValue n) = .ok (intValue (n * n)) := rfl
    unfold Table.ofList
    rw [product]
    exact if_pos length
  show (do
    let t ← Table.ofList (Matrix.rowMajor v) (intValue n) (intValue n)
    return t.toValue) = _
  rw [made]
  rfl

/-- A square matrix passes the check. -/
theorem requireSquare_eq (values : List Value) (n : ℤ) (what : Squareness) :
    Table.requireSquare ⟨values, intValue n, intValue n⟩ what = .ok () :=
  if_pos ((same_iff rfl rfl).2 rfl)

/-- The determinant of a table with two or three rows is that of the theory. -/
theorem isPolynomial_polynomialDeterminant (small : n = 2 ∨ n = 3) (values : List Value)
    {p : Fin n → Fin n → Polynomial Value} {P : Fin n → Fin n → ℚ[X]}
    (entries : ∀ i j, Polynomial.Represents fraction? (p i j).coeffs (P i j)) :
    Gives (Table.polynomialDeterminant ⟨values, intValue n, intValue n⟩ (Matrix.rowMajor p))
      (IsPolynomial · (Matrix.of P).det) := by
  have determinant := Matrix.represents_determinant exact_coefficients small entries
  obtain rfl | rfl := small <;> exact determinant.bind fun d hd => .of_ok ⟨d.coeffs, rfl, hd⟩

theorem polynomials?_map (entries : List (Polynomial Value)) (rows cols : Value) :
    Table.polynomials? ⟨entries.map fun p => polynomial p.coeffs, rows, cols⟩ = some entries := by
  induction entries with
  | nil => rfl
  | cons p entries ih =>
    unfold Table.polynomials? at ih ⊢
    rw [List.map_cons, List.mapM_cons, ih]
    rfl

/-- The determinant of polynomials over the fractions is the one of the theory. -/
theorem isPolynomial_determinantOf (small : n = 2 ∨ n = 3) {M : Fin n → Fin n → Value}
    {P : Fin n → Fin n → ℚ[X]} (entries : ∀ i j, (M i j).IsPolynomial (P i j)) :
    Gives (determinantOf (squareMatrix M)) (IsPolynomial · (Matrix.of P).det) := by
  choose cs same represents using entries
  obtain rfl : M = fun i j => polynomial (cs i j) := funext₂ same
  have listed : Matrix.rowMajor (fun i j => polynomial (cs i j)) =
      (Matrix.rowMajor fun i j => (⟨cs i j⟩ : Polynomial Value)).map fun p => polynomial p.coeffs :=
    (Matrix.map_rowMajor (fun p : Polynomial Value => polynomial p.coeffs) _).symm
  show Gives (Table.determinant ⟨_, intValue n, intValue n⟩) _
  unfold Table.determinant
  rw [requireSquare_eq, listed, polynomials?_map]
  exact isPolynomial_polynomialDeterminant small _ represents

theorem requireDivisor_eq (values : List Value) (rows : Value) (n : ℕ) :
    Table.requireDivisor ⟨values, rows, intValue n⟩ = .ok () := by
  have nonzero : ¬ (Number.int (n + 1)).isZero = true := by
    simp only [Number.isZero, Number.eq, decide_eq_true_eq]
    omega
  show (if (Number.int (n + 1)).isZero = true then Except.error Fault.divisionByZero
    else Except.ok ()) = _
  rw [if_neg nonzero]

/-- The entries that are made represent those of the determinant. -/
theorem represents_characteristicEntries (exact : ∀ i j, (v i j).fraction? = some (A i j))
    (i j : Fin n) :
    Polynomial.Represents fraction?
      (if i = j then Polynomial.ofList coefficients [v i j, coefficients.ofInt (-1)]
        else Polynomial.constant (v i j)).coeffs
      (Matrix.characteristicEntries A i j) := by
  unfold Matrix.characteristicEntries
  split
  · have line : Polynomial.Denotes fraction? [v i j, coefficients.ofInt (-1)]
        (Polynomial.C (A i j) - Polynomial.X) := by
      refine .cons_of_eq (exact i j) (.cons (exact_coefficients.ofInt (-1)) .nil) ?_
      simp [sub_eq_add_neg]
    exact line.ofList exact_coefficients (by simp)
  · exact Polynomial.represents_singleton (exact i j)

/-- The characteristic polynomial is that of the theory, up to its sign. -/
theorem isPolynomial_characteristicOf (small : n = 2 ∨ n = 3)
    (exact : ∀ i j, (v i j).fraction? = some (A i j)) :
    Gives (characteristicOf (squareMatrix v))
      (IsPolynomial · (Matrix.of (Matrix.characteristicEntries A)).det) := by
  show Gives (Table.characteristicPolynomial ⟨_, intValue n, intValue n⟩) _
  unfold Table.characteristicPolynomial
  rw [requireSquare_eq, requireDivisor_eq]
  have counted : (intValue n).int? = some (n : ℤ) := rfl
  have determinant := isPolynomial_polynomialDeterminant small (Matrix.rowMajor v)
    (represents_characteristicEntries exact)
  simp only [counted, Matrix.characteristicMatrix_eq]
  split <;> exact determinant

/-- The trace of exact entries is exact. -/
theorem exact_traceOf (exact : ∀ i j, (v i j).fraction? = some (A i j)) (positive : 0 < n) :
    Gives (traceOf (squareMatrix v)) (·.fraction? = some (Matrix.of A).trace) := by
  obtain ⟨n, rfl⟩ := Nat.exists_eq_succ_of_ne_zero positive.ne'
  have first : Table.get ⟨Matrix.rowMajor v, intValue (n + 1 : ℕ), intValue (n + 1 : ℕ)⟩
      (intValue 1) (intValue 1) = .ok (v 0 0) := Matrix.get_rowMajor v 0 0 0
  show Gives (Table.trace ⟨_, intValue (n + 1 : ℕ), intValue (n + 1 : ℕ)⟩) _
  unfold Table.trace
  rw [requireSquare_eq, first]
  exact Matrix.exact_trace exact_coefficients exact positive

/-- What the characteristic polynomial of a square matrix with the entries `A` is. -/
structure IsCharacteristic (m p : Value) (A : Fin n → Fin n → ℚ) : Prop where
  value : ∀ {t x}, t.fraction? = some x →
    Gives (evalAt p t) (·.fraction? = some (Matrix.of A - x • 1).det)
  degree : degreeOf p = .ok (intValue n)
  leading : ∃ cs c, p = polynomial cs ∧ cs[n]? = some c ∧ c.fraction? = some ((-1) ^ n)
  /-- The coefficient that the trace gives. -/
  second : ∃ cs c t x, p = polynomial cs ∧ cs[n - 1]? = some c ∧
    traceOf m = .ok t ∧ t.fraction? = some x ∧ c.fraction? = some ((-1) ^ (n - 1) * x)

/-- A polynomial over the fractions has its coefficients. -/
theorem IsPolynomial.coefficient {p : Value} {P : ℚ[X]} (h : p.IsPolynomial P) {k : ℕ}
    (below : k ≤ P.natDegree) :
    ∃ cs c, p = polynomial cs ∧ cs[k]? = some c ∧ c.fraction? = some (P.coeff k) := by
  obtain ⟨cs, rfl, hcs⟩ := h
  have inside : k < cs.length := by
    rw [hcs.length_eq]
    exact Nat.lt_succ_of_le below
  have found := List.getElem?_eq_getElem inside
  exact ⟨cs, cs[k], rfl, found, hcs.denotes.coeff_eq found⟩

theorem isCharacteristic_of_isPolynomial {p : Value} (positive : 0 < n)
    (exact : ∀ i j, (v i j).fraction? = some (A i j))
    (h : p.IsPolynomial (Matrix.of (Matrix.characteristicEntries A)).det) :
    IsCharacteristic (squareMatrix v) p A where
  value ht := Matrix.eval_characteristicEntries A _ ▸ exact_evalAt h ht
  degree := by rw [degreeOf_eq h, Matrix.natDegree_characteristicEntries]
  leading := by
    have highest := h.coefficient (Matrix.natDegree_characteristicEntries A).ge
    rwa [Matrix.leadingCoeff_characteristicEntries] at highest
  second := by
    have below : n - 1 ≤ (Matrix.of (Matrix.characteristicEntries A)).det.natDegree := by
      rw [Matrix.natDegree_characteristicEntries]
      exact Nat.sub_le ..
    obtain ⟨cs, c, same, found, hc⟩ := h.coefficient below
    rw [Matrix.coeff_characteristicEntries A positive] at hc
    obtain ⟨t, sum, ht⟩ := exact_traceOf exact positive
    exact ⟨cs, c, t, _, same, found, sum, ht, hc⟩

/-- The characteristic polynomial of two or three rows of exact numbers has the determinant of
`A - t` as its value at `t`. Its degree is the number of rows, its two highest coefficients are the
sign and the trace, and the transpose has the same one. More generally the determinant of
polynomials from exact numbers has as its value the determinant of the values. -/
theorem characteristic_polynomial (small : n = 2 ∨ n = 3) :
    (∀ {v : Fin n → Fin n → Value} {A : Fin n → Fin n → ℚ},
      (∀ i j, (v i j).fraction? = some (A i j)) →
      ∃ m w p q, matrixOf v = .ok m ∧ matrixOf (fun i j => v j i) = .ok w ∧
        characteristicOf m = .ok p ∧ characteristicOf w = .ok q ∧
        IsCharacteristic m p A ∧ same p q = true) ∧
    ∀ {items : Fin n → Fin n → List Value} {ys : Fin n → Fin n → List ℚ},
      (∀ i j, items i j ≠ []) → (∀ i j, (items i j).map fraction? = (ys i j).map some) →
      ∃ M m d, (∀ i j, polynomialOf (items i j) = .ok (M i j)) ∧ matrixOf M = .ok m ∧
        determinantOf m = .ok d ∧ ∀ {t x}, t.fraction? = some x →
          (∀ i j, Gives (evalAt (M i j) t) (·.fraction? = some (Polynomial.powerSum (ys i j) x))) ∧
          Gives (evalAt d t)
            (·.fraction? = some (Matrix.of fun i j => Polynomial.powerSum (ys i j) x).det) := by
  have positive : 0 < n := by omega
  refine ⟨fun {v A} exact => ?_, fun {items ys} nonempty exact => ?_⟩
  · obtain ⟨p, made, hp⟩ := isPolynomial_characteristicOf small exact
    obtain ⟨q, transposed, hq⟩ := isPolynomial_characteristicOf small fun i j => exact j i
    rw [Matrix.det_characteristicEntries_transpose] at hq
    exact ⟨_, _, p, q, matrixOf_eq _, matrixOf_eq _, made, transposed,
      isCharacteristic_of_isPolynomial positive exact hp, (hp.same_iff hq).2 rfl⟩
  · choose P denotes values using fun i j => Polynomial.exists_denotes (exact i j)
    choose M made polynomials using fun i j =>
      isPolynomial_polynomialOf (denotes i j) (nonempty i j)
    obtain ⟨d, determinant, hd⟩ := isPolynomial_determinantOf small polynomials
    refine ⟨M, _, d, made, matrixOf_eq M, determinant, fun {t x} ht => ?_⟩
    simp only [← values, ← Matrix.eval_det]
    exact ⟨fun i j => exact_evalAt (polynomials i j) ht, exact_evalAt hd ht⟩

/-- A matrix that is not symmetric, with its characteristic polynomial at two. -/
theorem characteristic_polynomial_three :
    ∃ m p, matrixOf ![![intValue 1, intValue 2, intValue 0],
        ![intValue 0, intValue 1, fractionValue (1 / 2)],
        ![intValue 3, intValue 0, intValue 1]] = .ok m ∧
      characteristicOf m = .ok p ∧ degreeOf p = .ok (intValue 3) ∧
      Gives (evalAt p (intValue 2)) (·.fraction? = some 2) := by
  have exact : ∀ i j, (![![intValue 1, intValue 2, intValue 0],
      ![intValue 0, intValue 1, fractionValue (1 / 2)],
      ![intValue 3, intValue 0, intValue 1]] i j).fraction? =
        some ((![![1, 2, 0], ![0, 1, 1 / 2], ![3, 0, 1]] : Fin 3 → Fin 3 → ℚ) i j) := by
    intro i j
    fin_cases i <;> fin_cases j <;> rfl
  obtain ⟨m, -, p, -, made, -, polynomial, -, characteristic, -⟩ :=
    (characteristic_polynomial (.inr rfl)).1 exact
  refine ⟨m, p, made, polynomial, characteristic.degree, ?_⟩
  have value := characteristic.value (t := intValue 2) rfl
  have determinant : (Matrix.of (![![1, 2, 0], ![0, 1, 1 / 2], ![3, 0, 1]] : Fin 3 → Fin 3 → ℚ) -
      ((2 : ℤ) : ℚ) • 1).det = 2 := by
    simp [Matrix.det_fin_three]
    norm_num
  rwa [determinant] at value

end Calculator.Value

end Fluxion
