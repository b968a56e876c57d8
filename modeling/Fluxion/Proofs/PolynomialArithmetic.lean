import Fluxion.Calculator.Command
import Fluxion.Proofs.ExactCoefficients

/-!
# Arithmetic of polynomials as values

Integers and fractions are exact: they count as fractions (`fraction?`), and their sums, differences
and products are exact again (`exact_join`). So a polynomial with such coefficients is one over the
fractions (`IsPolynomial`). Each operation on such polynomials has a result, which is the polynomial
that the operation makes over the fractions: with another polynomial or an exact number on the right
(`isPolynomial_join_left`), with an integer on the left (`isPolynomial_join_right`), and with the
opposite sign (`isPolynomial_negate`). A fraction on the left decides itself, and takes no
polynomial (`join_fraction_polynomial`).

The coefficients of polynomials may be polynomials again, so numbers are joined at some depth of
nesting. The depth makes no difference to numbers.
-/

open scoped Polynomial

namespace Fluxion.Calculator
set_option autoImplicit false

/-- The operations that polynomials have. -/
def ringOps : List Op := [.add, .sub, .mul]

/-- The operation where there are those of a ring, if it is one of them. -/
def ringOp {S : Type} [Add S] [Sub S] [Mul S] : Op → S → S → S
  | .add, x, y => x + y
  | .sub, x, y => x - y
  | .mul, x, y => x * y
  | .div, x, _ | .pow, x, _ => x

namespace Value

/-- The fraction that a value of an exact kind counts as. -/
def fraction? (v : Value) : Option ℚ := v.number?.bind Number.exactFraction?

/-- Both outcomes are values, and the values are equal. -/
def Agree (v w : Outcome Value) : Prop := ∃ a b, v = .ok a ∧ w = .ok b ∧ same a b = true

variable {op : Op} {u v w : Value} {a b : Number} {x y : ℚ}

/-! ### Numbers -/

/-- An exact number is an integer or the fraction that it counts as. -/
theorem number_cases (ha : a.exactFraction? = some x) :
    (∃ n : ℤ, a = .int n ∧ x = n) ∨ a = .fraction x := by
  cases a with
  | double => cases ha
  | int n =>
    cases ha
    exact .inl ⟨n, rfl, rfl⟩
  | fraction q =>
    cases ha
    exact .inr rfl

/-- An operation that agrees on integers and on fractions is exact on numbers of either kind. -/
theorem exact_numberJoin {onInt : ℤ → ℤ → ℤ} {onDouble : Float → Float → Float}
    {onFraction : ℚ → ℚ → ℚ} (cast : ∀ m n : ℤ, ((onInt m n : ℤ) : ℚ) = onFraction m n)
    (ha : a.exactFraction? = some x) (hb : b.exactFraction? = some y) :
    Gives (Number.join onInt onDouble onFraction a b)
      (·.exactFraction? = some (onFraction x y)) := by
  obtain ⟨m, rfl, rfl⟩ | rfl := number_cases ha <;>
    obtain ⟨n, rfl, rfl⟩ | rfl := number_cases hb
  · exact .of_ok (congrArg some (cast m n))
  · exact .of_ok rfl
  · exact .of_ok rfl
  · exact .of_ok rfl

/-- Sums, differences and products of exact numbers are exact. -/
theorem exact_joinNumbers (ring : op ∈ ringOps) (ha : a.exactFraction? = some x)
    (hb : b.exactFraction? = some y) :
    Gives (joinNumbers op a b) (·.exactFraction? = some (ringOp op x y)) := by
  cases op with
  | add => exact exact_numberJoin Int.cast_add ha hb
  | sub => exact exact_numberJoin Int.cast_sub ha hb
  | mul => exact exact_numberJoin Int.cast_mul ha hb
  | div | pow => simp [ringOps] at ring

/-- A value that counts as a number is taken as that number. -/
theorem counted_eq (hv : v.number? = some a) : v.counted = number a := by
  rw [counted, hv]

/-- Two numbers are joined as numbers, however deep they stand. -/
theorem joinNested_numbers (depth : ℕ) (hv : v.number? = some a) (hw : w.number? = some b) :
    joinNested depth op v w = do return number (← joinNumbers op a b) := by
  cases depth with
  | zero => rw [joinNested, joinBy, counted_eq hv, counted_eq hw]
  | succ depth => rw [joinNested, joinBy, counted_eq hv, counted_eq hw]

theorem exact_joinNested (depth : ℕ) (ring : op ∈ ringOps) (hv : v.fraction? = some x)
    (hw : w.fraction? = some y) :
    Gives (joinNested depth op v w) (·.fraction? = some (ringOp op x y)) := by
  obtain ⟨a, hva, ha⟩ := Option.bind_eq_some_iff.1 hv
  obtain ⟨b, hwb, hb⟩ := Option.bind_eq_some_iff.1 hw
  rw [joinNested_numbers depth hva hwb]
  exact (exact_joinNumbers ring ha hb).bind fun c hc => .of_ok hc

theorem exact_join (ring : op ∈ ringOps) (hv : v.fraction? = some x) (hw : w.fraction? = some y) :
    Gives (join op v w) (·.fraction? = some (ringOp op x y)) :=
  exact_joinNested _ ring hv hw

/-- A value is zero when its fraction is, whatever its kind. -/
theorem isZero_iff (hv : v.fraction? = some x) : v.isZero = true ↔ x = 0 := by
  obtain ⟨a, hva, ha⟩ := Option.bind_eq_some_iff.1 hv
  rw [isZero, hva]
  obtain ⟨n, rfl, rfl⟩ | rfl := number_cases ha <;> simp [Number.isZero, Number.eq]

/-- Values of exact kinds are exact coefficients, whatever way of joining numbers is taken. -/
theorem exact_coefficientsBy {inner : Op → Value → Value → Outcome Value}
    (computes : ∀ {op v w x y}, op ∈ ringOps → v.fraction? = some x → w.fraction? = some y →
      Gives (inner op v w) (·.fraction? = some (ringOp op x y))) :
    (coefficientsBy inner).Exact fraction? where
  ofInt n := rfl
  add hv hw := computes (by decide) hv hw
  sub hv hw := computes (by decide) hv hw
  mul hv hw := computes (by decide) hv hw
  isZero_iff hv := isZero_iff hv

/-! ### Polynomials -/

/-- The value stands for the polynomial: it has the coefficients, or it is one of them. -/
def StandsFor (v : Value) (P : ℚ[X]) : Prop :=
  Polynomial.Represents fraction? v.asPolynomial.coeffs P

/-- The value is a polynomial with the coefficients. -/
def IsPolynomial (v : Value) (P : ℚ[X]) : Prop :=
  ∃ cs, v = polynomial cs ∧ Polynomial.Represents fraction? cs P

variable {P Q : ℚ[X]} {cs ds : List Value}

/-- A number stands for a constant polynomial. -/
theorem standsFor_scalar (hv : v.fraction? = some x) : v.StandsFor (Polynomial.C x) := by
  have single : v.asPolynomial.coeffs = [v] := by
    cases v with
    | polynomial => cases hv
    | _ => rfl
  rw [StandsFor, single]
  exact Polynomial.represents_singleton hv

theorem IsPolynomial.standsFor (hv : v.IsPolynomial P) : v.StandsFor P := by
  obtain ⟨cs, rfl, hcs⟩ := hv
  exact hcs

/-- Joining two values of which one is a polynomial and decides. -/
theorem isPolynomial_joinPolynomials {inner : Op → Value → Value → Outcome Value}
    (E : (coefficientsBy inner).Exact fraction?) (ring : op ∈ ringOps) (hv : v.StandsFor P)
    (hw : w.StandsFor Q) (otherwise : Outcome Value) :
    Gives (joinPolynomials inner op v w otherwise) (IsPolynomial · (ringOp op P Q)) := by
  cases op with
  | add => exact (Polynomial.represents_add E hv hw).bind fun r hr => .of_ok ⟨r.coeffs, rfl, hr⟩
  | sub => exact (Polynomial.represents_sub E hv hw).bind fun r hr => .of_ok ⟨r.coeffs, rfl, hr⟩
  | mul => exact (Polynomial.represents_mul E hv hw).bind fun r hr => .of_ok ⟨r.coeffs, rfl, hr⟩
  | div | pow => simp [ringOps] at ring

/-- A polynomial decides, and its coefficients are joined one level deeper. -/
theorem join_polynomial_left (op : Op) (cs : List Value) (w : Value) :
    ∃ depth, join op (polynomial cs) w = joinBy (joinNested depth) op (polynomial cs) w := by
  have deep : 1 ≤ max (nesting (polynomial cs)) w.nesting := by
    rw [nesting]
    omega
  obtain ⟨depth, hdepth⟩ := Nat.exists_eq_add_of_le' deep
  exact ⟨depth, by rw [join, hdepth, joinNested]⟩

/-- With a polynomial on the right, the operation is the one on nested values. -/
theorem join_polynomial_right (op : Op) (v : Value) (ds : List Value) :
    ∃ depth, join op v (polynomial ds) = joinBy (joinNested depth) op v (polynomial ds) := by
  have deep : 1 ≤ max v.nesting (nesting (polynomial ds)) := by
    rw [nesting]
    omega
  obtain ⟨depth, hdepth⟩ := Nat.exists_eq_add_of_le' deep
  exact ⟨depth, by rw [join, hdepth, joinNested]⟩

theorem exact_nested (depth : ℕ) : (coefficientsBy (joinNested depth)).Exact fraction? :=
  exact_coefficientsBy fun ring hv hw => exact_joinNested depth ring hv hw

/-- The arithmetic of coefficients is exact on fractions. -/
theorem exact_coefficients : coefficients.Exact fraction? :=
  exact_coefficientsBy fun ring hv hw => exact_join ring hv hw

/-- A polynomial on the left takes polynomials and scalars. -/
theorem isPolynomial_join_left (ring : op ∈ ringOps) (hv : v.IsPolynomial P)
    (hw : w.IsPolynomial Q ∨ ∃ x, w.fraction? = some x ∧ Q = Polynomial.C x) :
    Gives (join op v w) (IsPolynomial · (ringOp op P Q)) := by
  have stands : w.StandsFor Q := by
    obtain hw | ⟨x, hw, rfl⟩ := hw
    · exact hw.standsFor
    · exact standsFor_scalar hw
  have represents := hv.standsFor
  obtain ⟨cs, rfl, -⟩ := hv
  obtain ⟨depth, deeper⟩ := join_polynomial_left op cs w
  rw [deeper]
  have joined := isPolynomial_joinPolynomials (exact_nested depth) ring represents stands
  obtain ⟨ds, rfl, -⟩ | ⟨x, hw, -⟩ := hw
  · exact joined _
  · obtain ⟨b, hwb, -⟩ := Option.bind_eq_some_iff.1 hw
    rw [joinBy, counted_eq hwb]
    exact joined _

/-- An integer on the left of a polynomial. -/
theorem isPolynomial_join_right {n : ℤ} (ring : op ∈ ringOps) (hv : v.number? = some (.int n))
    (hw : w.IsPolynomial Q) :
    Gives (join op v w) (IsPolynomial · (ringOp op (Polynomial.C (n : ℚ)) Q)) := by
  have represents := hw.standsFor
  obtain ⟨ds, rfl, -⟩ := hw
  obtain ⟨depth, deeper⟩ := join_polynomial_right op v ds
  have scalar : v.fraction? = some (n : ℚ) := by
    rw [fraction?, hv]
    rfl
  rw [deeper, joinBy, counted_eq hv]
  have stands := standsFor_scalar scalar
  exact isPolynomial_joinPolynomials (exact_nested depth) ring stands represents _

/-- A fraction on the left refuses a polynomial, as it refuses all that is no exact number. -/
theorem join_fraction_polynomial (ring : op ∈ ringOps) (q : ℚ) (ds : List Value) :
    join op (fractionValue q) (polynomial ds) = .error (polynomial ds).noFraction := by
  obtain ⟨depth, deeper⟩ := join_polynomial_right op (fractionValue q) ds
  rw [deeper]
  cases op with
  | add | sub | mul => rfl
  | div | pow => simp [ringOps] at ring

/-! ### The opposite -/

theorem negate_number (hv : v.number? = some a) : negate v = .ok (number a.neg) := by
  cases v with
  | bool | number | undefined =>
    cases hv
    rfl
  | _ => cases hv

theorem exact_negate (hv : v.fraction? = some x) : Gives (negate v) (·.fraction? = some (-x)) := by
  obtain ⟨a, hva, ha⟩ := Option.bind_eq_some_iff.1 hv
  rw [negate_number hva]
  obtain ⟨n, rfl, rfl⟩ | rfl := number_cases ha
  · exact .of_ok (congrArg some (Int.cast_neg n))
  · exact .of_ok rfl

/-- The coefficients are negated one by one, and none is lost. -/
theorem denotes_allNegated (hcs : Polynomial.Denotes fraction? cs P) :
    Gives (allNegated cs) fun ns =>
      Polynomial.Denotes fraction? ns (-P) ∧ ns.length = cs.length := by
  induction hcs with
  | nil =>
    rw [neg_zero]
    exact .of_ok ⟨.nil, rfl⟩
  | @cons c y cs P hc hcs ih =>
    refine (exact_negate hc).bind fun n hn => ih.bind fun ns hns => .of_ok ⟨?_, by simp [hns.2]⟩
    refine .cons_of_eq hn hns.1 ?_
    rw [map_neg]
    ring

theorem isPolynomial_negate (hv : v.IsPolynomial P) : Gives (negate v) (IsPolynomial · (-P)) := by
  obtain ⟨cs, rfl, hcs⟩ := hv
  refine (denotes_allNegated hcs.denotes).bind fun ns hns => .of_ok ⟨_, rfl, ?_⟩
  refine hns.1.trim (R := coefficients) exact_coefficients ?_
  rw [hns.2]
  exact hcs.length_pos

/-! ### Commands -/

/-- The polynomial of some coefficients, as the command makes it. -/
def polynomialOf (items : List Value) : Outcome Value :=
  NumberCommand.run .polynomial [.list items]

/-- The value of a polynomial, as the command gives it. -/
def evalAt (p v : Value) : Outcome Value := NumberCommand.run .evalPolynomial [p, v]

/-- The degree of a polynomial, as the command gives it. -/
def degreeOf (p : Value) : Outcome Value := NumberCommand.run .degree [p]

theorem isPolynomial_polynomialOf (hcs : Polynomial.Denotes fraction? cs P) (nonempty : cs ≠ []) :
    Gives (polynomialOf cs) (IsPolynomial · P) :=
  .of_ok ⟨_, rfl, hcs.ofList exact_coefficients (List.length_pos_iff.2 nonempty)⟩

/-- The value of a polynomial at a fraction is exact. -/
theorem exact_evalAt (hv : v.IsPolynomial P) (hw : w.fraction? = some x) :
    Gives (evalAt v w) (·.fraction? = some (P.eval x)) := by
  obtain ⟨cs, rfl, hcs⟩ := hv
  exact Polynomial.exact_evalCoeffs exact_coefficients hcs.denotes hw

/-- The degree that is answered is that of the polynomial. -/
theorem degreeOf_eq (hv : v.IsPolynomial P) : degreeOf v = .ok (intValue P.natDegree) := by
  obtain ⟨cs, rfl, hcs⟩ := hv
  have degree : cs.length - 1 = P.natDegree := by rw [hcs.length_eq, Nat.add_sub_cancel]
  rw [← degree]
  rfl

/-! ### Equality -/

/-- Exact numbers are equal when their fractions are, also across kinds. -/
theorem numberEq_iff (ha : a.exactFraction? = some x) (hb : b.exactFraction? = some y) :
    a.eq b = true ↔ x = y := by
  obtain ⟨m, rfl, rfl⟩ | rfl := number_cases ha <;>
    obtain ⟨n, rfl, rfl⟩ | rfl := number_cases hb <;> simp [Number.eq]

theorem same_numbers (hv : v.number? = some a) (hw : w.number? = some b) : same v w = a.eq b := by
  have plain : same v w = samePlain v w := by
    cases v with
    | polynomial | vector | matrix | list | tuple => cases hv
    | _ => rfl
  rw [plain]
  unfold samePlain
  rw [hv, hw]

theorem same_iff (hv : v.fraction? = some x) (hw : w.fraction? = some y) :
    same v w = true ↔ x = y := by
  obtain ⟨a, hva, ha⟩ := Option.bind_eq_some_iff.1 hv
  obtain ⟨b, hwb, hb⟩ := Option.bind_eq_some_iff.1 hw
  rw [same_numbers hva hwb]
  exact numberEq_iff ha hb

/-- An exact number is not one of the undefined ones. -/
theorem sameMark_eq_false (hv : v.fraction? = some x) : sameMark v w = false := by
  cases v with
  | undefined => cases hv
  | _ => rfl

/-- Lists of coefficients are equal entry by entry. -/
theorem allSame_iff (hcs : Polynomial.Denotes fraction? cs P)
    (hds : Polynomial.Denotes fraction? ds Q) :
    allSame cs ds = true ↔ List.Forall₂ (fun c d => fraction? c = fraction? d) cs ds := by
  induction hcs generalizing ds Q with
  | nil =>
    cases hds with
    | nil => simp [allSame]
    | cons => simp [allSame]
  | @cons c x cs P hc hcs ih =>
    cases hds with
    | nil => simp [allSame]
    | @cons d y ds Q hd hds =>
      rw [allSame, sameMark_eq_false hc, Bool.false_or, Bool.and_eq_true, same_iff hc hd, ih hds,
        List.forall₂_cons, hc, hd, Option.some_inj]

/-- Polynomials are equal as values if and only if they have the same coefficients. -/
theorem IsPolynomial.same_iff (hv : v.IsPolynomial P) (hw : w.IsPolynomial Q) :
    same v w = true ↔ P = Q := by
  obtain ⟨cs, rfl, hcs⟩ := hv
  obtain ⟨ds, rfl, hds⟩ := hw
  rw [same, allSame_iff hcs.denotes hds.denotes]
  exact hcs.forall₂_iff hds

/-- Exact outcomes agree when they have one fraction. -/
theorem agree_iff {o o' : Outcome Value} (h : Gives o (·.fraction? = some x))
    (h' : Gives o' (·.fraction? = some y)) : Agree o o' ↔ x = y := by
  obtain ⟨a, rfl, ha⟩ := h
  obtain ⟨b, rfl, hb⟩ := h'
  rw [← Value.same_iff ha hb]
  refine ⟨?_, fun equal => ⟨a, b, rfl, rfl, equal⟩⟩
  rintro ⟨_, _, ⟨rfl⟩, ⟨rfl⟩, equal⟩
  exact equal

end Value

end Fluxion.Calculator
