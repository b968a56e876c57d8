import Mathlib.LinearAlgebra.Matrix.Determinant.Basic
import Mathlib.LinearAlgebra.Matrix.Trace
import Fluxion.Determinant
import Fluxion.Proofs.ExactCoefficients

/-!
# Determinants and traces

The entries of a square matrix are a list, row by row (`rowMajor`), and rows and columns are found
in it by their places: an entry by its row and column (`get_rowMajor`), the diagonal by the places
that one more than the number of columns divides (`characteristicMatrix_eq`). Written out for two
and three rows, the determinant of polynomials is that of the theory (`represents_determinant`), and
the sum over the diagonal is the trace for any number of rows (`exact_trace`).
-/

open scoped Polynomial

namespace Fluxion
set_option autoImplicit false

namespace Matrix

variable {α β : Type} {n : ℕ}

/-- The entries of a square matrix row by row. -/
def rowMajor (v : Fin n → Fin n → α) : List α :=
  List.ofFn fun k : Fin (n * n) => v k.divNat k.modNat

theorem map_rowMajor (g : α → β) (v : Fin n → Fin n → α) :
    (rowMajor v).map g = rowMajor fun i j => g (v i j) :=
  List.map_ofFn ..

/-- An entry stands at its row times the number of columns, plus its column. -/
theorem getElem?_rowMajor (v : Fin n → Fin n → α) (i j : Fin n) :
    (rowMajor v)[(n * i + j : ℕ)]? = some (v i j) := by
  have inside : (n * i + j : ℕ) < n * n := by
    calc (n * i + j : ℕ) < n * i + n := by omega
      _ = n * (i + 1) := by ring
      _ ≤ n * n := Nat.mul_le_mul_left n i.isLt
  have row : (⟨n * i + j, inside⟩ : Fin (n * n)).divNat = i := by
    ext
    rw [Fin.coe_divNat, Nat.mul_add_div i.pos, Nat.div_eq_of_lt j.isLt, add_zero]
  have col : (⟨n * i + j, inside⟩ : Fin (n * n)).modNat = j := by
    ext
    rw [Fin.coe_modNat, Nat.mul_add_mod, Nat.mod_eq_of_lt j.isLt]
  rw [rowMajor, List.getElem?_ofFn, dif_pos inside, row, col]

/-- The entry of a row and a column is found where it was put. -/
theorem get_rowMajor (v : Fin n → Fin n → α) (rows : ℤ) (i j : Fin n) :
    get ⟨rowMajor v, rows, n⟩ (i + 1) (j + 1) = .ok (v i j) := by
  have place : ((i : ℤ) + 1 - 1) * n + (j + 1) - 1 = ((n * i + j : ℕ) : ℤ) := by
    push_cast
    ring
  have inside : (n * i + j : ℕ) < (rowMajor v).length :=
    (List.getElem?_eq_some_iff.1 (getElem?_rowMajor v i j)).1
  simp only [get, itemAt?, place, position?_ofNat inside, Option.bind_some, getElem?_rowMajor]

/-- The places on the diagonal are the multiples of one more than the number of columns. -/
theorem place_emod_eq_zero_iff (k : Fin (n * n)) :
    (k : ℤ) % (n + 1) = 0 ↔ k.divNat = k.modNat := by
  have place : (k : ℤ) = (k.modNat - k.divNat : ℤ) + (n + 1) * k.divNat := by
    have split : n * (k / n) + k % n = (k : ℕ) := Nat.div_add_mod ..
    rw [← Fin.coe_divNat, ← Fin.coe_modNat] at split
    rw [← split]
    push_cast
    ring
  rw [place, Int.add_mul_emod_self_left]
  constructor
  · intro divides
    have small : |(k.modNat - k.divNat : ℤ)| < n + 1 := by
      rw [abs_lt]
      omega
    have := Int.eq_zero_of_abs_lt_dvd (Int.dvd_of_emod_eq_zero divides) small
    omega
  · intro diagonal
    simp [diagonal]

/-- The entries of the matrix whose determinant is the characteristic polynomial. -/
theorem characteristicMatrix_eq (R : Coefficients α) (v : Fin n → Fin n → α) (rows : ℤ) :
    characteristicMatrix R ⟨rowMajor v, rows, n⟩ = .ok ⟨rowMajor fun i j =>
      if i = j then Polynomial.ofList R [v i j, R.ofInt (-1)] else Polynomial.constant (v i j),
      rows, n⟩ := by
  have entry (a : α) (place : ℕ) : characteristicEntry R n place a =
      .ok (if (place : ℤ) % (n + 1) = 0 then Polynomial.ofList R [a, R.ofInt (-1)]
        else Polynomial.constant a) := by
    rw [characteristicEntry, if_neg (by omega)]
    exact (apply_ite ..).symm
  have entries : (rowMajor v).zipIdx.map (fun x =>
      if (x.2 : ℤ) % (n + 1) = 0 then Polynomial.ofList R [x.1, R.ofInt (-1)]
        else Polynomial.constant x.1) = rowMajor fun i j =>
      if i = j then Polynomial.ofList R [v i j, R.ofInt (-1)] else Polynomial.constant (v i j) := by
    refine List.ext_getElem (by simp [rowMajor]) fun k hk _ => ?_
    have inside : k < n * n := by simpa [rowMajor] using hk
    have diagonal := place_emod_eq_zero_iff ⟨k, inside⟩
    -- the list knows the diagonal by its places, the matrix by rows and columns
    simp only [rowMajor, List.getElem_map, List.getElem_zipIdx, List.getElem_ofFn, zero_add]
    exact if_congr diagonal rfl rfl
  simp only [characteristicMatrix, entry, ← entries]
  exact congrArg (Except.map _) (List.mapM_pure)

/-! ### Determinants of polynomials -/

section Determinant

variable {R : Coefficients α} {fraction? : α → Option ℚ} {p : Fin n → Fin n → Polynomial α}
variable {P : Fin n → Fin n → ℚ[X]}

theorem represents_entry
    (entries : ∀ i j, Polynomial.Represents fraction? (p i j).coeffs (P i j)) (i j : Fin n) :
    Gives (get ⟨rowMajor p, n, n⟩ (i + 1) (j + 1))
      (Polynomial.Represents fraction? ·.coeffs (P i j)) :=
  ⟨_, get_rowMajor p n i j, entries i j⟩

/-- The product of two entries, as the determinant takes it. -/
theorem represents_product (E : R.Exact fraction?)
    (entries : ∀ i j, Polynomial.Represents fraction? (p i j).coeffs (P i j)) (i j k l : Fin n) :
    Gives (do
      let q ← get ⟨rowMajor p, n, n⟩ (i + 1) (j + 1)
      let r ← get ⟨rowMajor p, n, n⟩ (k + 1) (l + 1)
      q.mul R r) (Polynomial.Represents fraction? ·.coeffs (P i j * P k l)) :=
  (represents_entry entries i j).bind fun _ hq =>
    (represents_entry entries k l).bind fun _ hr => Polynomial.represents_mul E hq hr

/-- The product of three entries, as the determinant takes it. -/
theorem represents_triple (E : R.Exact fraction?)
    (entries : ∀ i j, Polynomial.Represents fraction? (p i j).coeffs (P i j))
    (i j k l s t : Fin n) :
    Gives ((do
      let q ← get ⟨rowMajor p, n, n⟩ (i + 1) (j + 1)
      let r ← get ⟨rowMajor p, n, n⟩ (k + 1) (l + 1)
      q.mul R r) >>= fun q => do
        let r ← get ⟨rowMajor p, n, n⟩ (s + 1) (t + 1)
        q.mul R r) (Polynomial.Represents fraction? ·.coeffs (P i j * P k l * P s t)) :=
  (represents_product E entries i j k l).bind fun _ hq =>
    (represents_entry entries s t).bind fun _ hr => Polynomial.represents_mul E hq hr

/-- Written out for two and three rows, the determinant represents that of the theory. -/
theorem represents_determinant (E : R.Exact fraction?) (small : n = 2 ∨ n = 3)
    (entries : ∀ i j, Polynomial.Represents fraction? (p i j).coeffs (P i j)) :
    Gives (polynomialDeterminant R ⟨rowMajor p, n, n⟩)
      (Polynomial.Represents fraction? ·.coeffs (Matrix.of P).det) := by
  have product := represents_product E entries
  obtain rfl | rfl := small
  · rw [Matrix.det_fin_two]
    refine (product 0 0 1 1).bind fun _ right => (product 0 1 1 0).bind fun _ left => ?_
    exact Polynomial.represents_sub E right left
  · have triple := represents_triple E entries
    have written : (Matrix.of P).det =
        P 0 0 * P 1 1 * P 2 2 + P 0 1 * P 1 2 * P 2 0 + P 0 2 * P 1 0 * P 2 1
          - P 2 0 * P 1 1 * P 0 2 - P 2 1 * P 1 2 * P 0 0 - P 2 2 * P 1 0 * P 0 1 := by
      simp only [Matrix.det_fin_three, Matrix.of_apply]
      ring
    rw [written]
    -- three products to the right are added, then three to the left are taken off
    refine (triple 0 0 1 1 2 2).bind fun _ right₁ => (triple 0 1 1 2 2 0).bind fun _ right₂ => ?_
    refine (Polynomial.represents_add E right₁ right₂).bind fun _ sum => ?_
    refine (triple 0 2 1 0 2 1).bind fun _ right₃ => ?_
    refine (Polynomial.represents_add E sum right₃).bind fun _ sum => ?_
    refine (triple 2 0 1 1 0 2).bind fun _ left₁ => ?_
    refine (Polynomial.represents_sub E sum left₁).bind fun _ sum => ?_
    refine (triple 2 1 1 2 0 0).bind fun _ left₂ => ?_
    refine (Polynomial.represents_sub E sum left₂).bind fun _ sum => ?_
    refine (triple 2 2 1 0 0 1).bind fun _ left₃ => ?_
    exact Polynomial.represents_sub E sum left₃

end Determinant

/-! ### The trace -/

section Trace

variable {R : Coefficients α} {fraction? : α → Option ℚ} {v : Fin n → Fin n → α}
variable {A : Fin n → Fin n → ℚ}

/-- Entries on the diagonal are added one after the other. -/
theorem exact_sum_diagonal (E : R.Exact fraction?) (exact : ∀ i j, fraction? (v i j) = some (A i j))
    (places : List (Fin n)) {a : α} {x : ℚ} (ha : fraction? a = some x) :
    Gives ((places.map fun i : Fin n => (i + 1 : ℤ)).foldlM
        (fun sum i => do R.add sum (← get ⟨rowMajor v, n, n⟩ i i)) a)
      (fraction? · = some (x + (places.map fun i => A i i).sum)) := by
  induction places generalizing a x with
  | nil => exact .of_ok (by simp [ha])
  | cons i places ih =>
    rw [List.map_cons, List.foldlM_cons, get_rowMajor, List.map_cons, List.sum_cons, ← add_assoc]
    exact (E.add ha (exact i i)).bind fun b hb => ih hb

theorem span_two (n : ℕ) :
    span 2 (n + 1) = ((List.finRange n).map Fin.succ).map fun i : Fin (n + 1) => (i + 1 : ℤ) := by
  have count : ((n : ℤ) + 1 + 1 - 2).toNat = n := by omega
  rw [span, count, ← List.map_coe_finRange_eq_range, List.map_map, List.map_map]
  refine List.map_congr_left fun i _ => ?_
  simp only [Function.comp_apply, Fin.val_succ]
  push_cast
  ring

theorem exact_trace (E : R.Exact fraction?) (exact : ∀ i j, fraction? (v i j) = some (A i j))
    (positive : 0 < n) :
    Gives (trace R.add ⟨rowMajor v, n, n⟩) (fraction? · = some (Matrix.of A).trace) := by
  obtain ⟨n, rfl⟩ := Nat.exists_eq_succ_of_ne_zero positive.ne'
  have sum : (Matrix.of A).trace =
      A 0 0 + (((List.finRange n).map Fin.succ).map fun i => A i i).sum := by
    refine (Fin.sum_univ_succ fun i => A i i).trans ?_
    rw [Fin.sum_univ_def, List.map_map]
    rfl
  have first : get ⟨rowMajor v, (n + 1 : ℕ), (n + 1 : ℕ)⟩ 1 1 = .ok (v 0 0) := get_rowMajor v _ 0 0
  have square : requireSquare ⟨rowMajor v, (n + 1 : ℕ), (n + 1 : ℕ)⟩ .trace = .ok () := by
    simp [requireSquare, isSquare]
  unfold trace
  rw [square, first, sum]
  show Gives ((span 2 (n + 1)).foldlM _ _) _
  rw [span_two]
  exact exact_sum_diagonal E exact _ (exact 0 0)

end Trace

end Matrix

end Fluxion
