import Fluxion.Proofs.PolynomialArithmetic

/-!
# The ring of polynomials

Values of polynomials with exact coefficients go with the operations: the value of a sum is the sum
of the values, and likewise for differences, products, opposites and exact numbers as operands
(`eval_homomorphism`). A fraction as the left operand is the exception. It decides itself, takes
numbers of exact kinds only, and never asks the polynomial on its right.

What is reached by arithmetic from lists of exact numbers (`Reached`) is represented in one way
only (`reached_unique`). It is a polynomial over the fractions (`Reached.isPolynomial`), and such a
polynomial has its coefficients up to its degree; so equal values at all integers make equal
coefficients, and degrees add up in products.
-/

open scoped Polynomial

namespace Fluxion.Calculator.Value
set_option autoImplicit false

variable {op : Op} {p q r c v : Value} {as bs : List Value} {ys zs : List ℚ} {x y : ℚ}
variable {P Q : ℚ[X]}

theorem eval_ringOp (ring : op ∈ ringOps) (P Q : ℚ[X]) (x : ℚ) :
    (ringOp op P Q).eval x = ringOp op (P.eval x) (Q.eval x) := by
  cases op with
  | add => exact Polynomial.eval_add
  | sub => exact Polynomial.eval_sub ..
  | mul => exact Polynomial.eval_mul
  | div | pow => simp [ringOps] at ring

/-- If joining gives the polynomial that joins two, its value is what joins their values. -/
theorem agree_eval {joined left right : Outcome Value} (ring : op ∈ ringOps)
    (hjoined : Gives joined (IsPolynomial · (ringOp op P Q)))
    (hleft : Gives left (·.fraction? = some (P.eval x)))
    (hright : Gives right (·.fraction? = some (Q.eval x))) (hv : v.fraction? = some x) :
    Agree (do evalAt (← joined) v) (do join op (← left) (← right)) := by
  refine (agree_iff (hjoined.bind fun r hr => exact_evalAt hr hv) ?_).2 (eval_ringOp ring P Q x)
  exact hleft.bind fun a ha => hright.bind fun b hb => exact_join ring ha hb

/-- A value of an exact kind counts as an integer, or it is a fraction. -/
theorem exact_cases (hc : c.fraction? = some y) :
    (∃ n : ℤ, c.int? = some n ∧ c.number? = some (.int n) ∧ y = n) ∨
      c.int? = none ∧ c = fractionValue y := by
  cases c with
  | bool b =>
    cases hc
    exact .inl ⟨b.toInt, rfl, rfl, rfl⟩
  | number a =>
    obtain ⟨n, rfl, rfl⟩ | rfl := number_cases hc
    · exact .inl ⟨n, rfl, rfl, rfl⟩
    · exact .inr ⟨rfl, rfl⟩
  | _ => cases hc

/-- The value of a polynomial from exact numbers is the sum of its coefficients times powers, and
values go with sums, differences, products and opposites. So they do with an exact number on the
right and an integer on the left; a fraction on the left refuses the polynomial. -/
theorem eval_homomorphism (has : as ≠ []) (hbs : bs ≠ [])
    (exactA : as.map fraction? = ys.map some) (exactB : bs.map fraction? = zs.map some)
    (hc : c.fraction? = some y) (hv : v.fraction? = some x) :
    ∃ p q, polynomialOf as = .ok p ∧ polynomialOf bs = .ok q ∧
      (∃ cs ws, p = polynomial cs ∧ cs.map fraction? = ws.map some ∧
        Polynomial.powerSum ws x = Polynomial.powerSum ys x) ∧
      Gives (evalAt p v) (·.fraction? = some (Polynomial.powerSum ys x)) ∧
      (∀ op ∈ ringOps,
        Agree (do evalAt (← join op p q) v) (do join op (← evalAt p v) (← evalAt q v)) ∧
        Agree (do evalAt (← join op p c) v) (do join op (← evalAt p v) c) ∧
        (c.int?.isSome → Agree (do evalAt (← join op c p) v) (do join op c (← evalAt p v))) ∧
        (c.int? = none → join op c p = .error p.noFraction)) ∧
      Agree (do evalAt (← negate p) v) (do negate (← evalAt p v)) := by
  obtain ⟨P, hP, sum⟩ := Polynomial.exists_denotes exactA
  obtain ⟨Q, hQ, -⟩ := Polynomial.exists_denotes exactB
  obtain ⟨p, hp, first⟩ := isPolynomial_polynomialOf hP has
  obtain ⟨q, hq, second⟩ := isPolynomial_polynomialOf hQ hbs
  have value := exact_evalAt first hv
  have scalar : Gives (.ok c) (·.fraction? = some ((Polynomial.C y).eval x)) :=
    .of_ok (by rw [Polynomial.eval_C, hc])
  refine ⟨p, q, hp, hq, ?_, sum x ▸ value, fun op ring => ⟨?_, ?_, ?_, ?_⟩, ?_⟩
  · obtain ⟨cs, rfl, hcs⟩ := first
    obtain ⟨ws, fractions, values⟩ := hcs.denotes.exists_fractions
    exact ⟨cs, ws, rfl, fractions, by rw [← values, sum]⟩
  · exact agree_eval ring (isPolynomial_join_left ring first (.inl second)) value
      (exact_evalAt second hv) hv
  · exact agree_eval ring (isPolynomial_join_left ring first (.inr ⟨y, hc, rfl⟩)) value scalar hv
  · intro integer
    obtain ⟨n, -, counts, rfl⟩ | ⟨none, -⟩ := exact_cases hc
    · exact agree_eval ring (isPolynomial_join_right ring counts first) scalar value hv
    · simp [none] at integer
  -- A fraction with a polynomial on its right refuses it before any coefficient is met.
  · intro other
    obtain ⟨n, integer, -⟩ | ⟨-, rfl⟩ := exact_cases hc
    · simp [integer] at other
    · obtain ⟨cs, rfl, -⟩ := first
      exact join_fraction_polynomial ring y cs
  · refine (agree_iff (x := -P.eval x) (y := -P.eval x) ?_ ?_).2 rfl
    · exact (isPolynomial_negate first).bind fun r hr => by simpa using exact_evalAt hr hv
    · exact value.bind fun a ha => exact_negate ha

/-- Three times `1 + x/2` at a third, with a zero at the end of the coefficients. -/
theorem eval_homomorphism_thrice :
    ∃ p, polynomialOf [intValue 1, fractionValue (1 / 2), intValue 0] = .ok p ∧
      Agree (do evalAt (← join .mul (intValue 3) p) (fractionValue (1 / 3)))
        (do join .mul (intValue 3) (← evalAt p (fractionValue (1 / 3)))) := by
  have exactA : [intValue 1, fractionValue (1 / 2), intValue 0].map fraction? =
      [1, 1 / 2, 0].map some := rfl
  have exactB : [intValue 2].map fraction? = [2].map some := rfl
  have hc : (intValue 3).fraction? = some 3 := rfl
  have hv : (fractionValue (1 / 3)).fraction? = some (1 / 3) := rfl
  obtain ⟨p, _, hp, -, -, -, homomorphism, -⟩ :=
    eval_homomorphism (by simp) (by simp) exactA exactB hc hv
  exact ⟨p, hp, (homomorphism .mul (by decide)).2.2.1 rfl⟩

/-- A half times `1 + x` is refused, where `1 + x` times a half is not. -/
theorem half_refuses_polynomial :
    ∃ p, polynomialOf [intValue 1, intValue 1] = .ok p ∧
      join .mul (fractionValue (1 / 2)) p = .error p.noFraction ∧
      ¬ Agree (do evalAt (← join .mul (fractionValue (1 / 2)) p) (intValue 2))
        (do join .mul (fractionValue (1 / 2)) (← evalAt p (intValue 2))) := by
  have ring : Op.mul ∈ ringOps := by decide
  have refused := join_fraction_polynomial ring (1 / 2) [intValue 1, intValue 1]
  refine ⟨polynomial [intValue 1, intValue 1], rfl, refused, ?_⟩
  rw [refused]
  rintro ⟨a, b, impossible, -⟩
  cases impossible

/-! ### Unique representation -/

/-- Polynomials that are reached from lists of exact numbers by arithmetic. -/
inductive Reached : Value → Prop where
  | made {items : List Value} {p : Value} : items ≠ [] → (∀ a ∈ items, a.fraction?.isSome) →
    polynomialOf items = .ok p → Reached p
  | joined {op : Op} {p q r : Value} : op ∈ ringOps → Reached p → Reached q →
    join op p q = .ok r → Reached r
  | scalarRight {op : Op} {p c r : Value} : op ∈ ringOps → Reached p → c.fraction?.isSome →
    join op p c = .ok r → Reached r
  | scalarLeft {op : Op} {c p r : Value} : op ∈ ringOps → c.fraction?.isSome → Reached p →
    join op c p = .ok r → Reached r
  | negated {p r : Value} : Reached p → negate p = .ok r → Reached r

theorem exists_fractions {items : List Value} (exact : ∀ a ∈ items, a.fraction?.isSome) :
    ∃ ys : List ℚ, items.map fraction? = ys.map some := by
  refine ⟨items.map fun a => a.fraction?.getD 0, ?_⟩
  rw [List.map_map]
  refine List.map_congr_left fun a ha => ?_
  obtain ⟨y, hy⟩ := Option.isSome_iff_exists.1 (exact a ha)
  simp [hy]

/-- What is reached is a polynomial over the fractions. -/
theorem Reached.isPolynomial (reached : Reached p) : ∃ P, p.IsPolynomial P := by
  induction reached with
  | made nonempty exact made =>
    obtain ⟨ys, fractions⟩ := exists_fractions exact
    obtain ⟨P, hP, -⟩ := Polynomial.exists_denotes fractions
    exact ⟨P, (isPolynomial_polynomialOf hP nonempty).of_eq_ok made⟩
  | joined ring _ _ result ihp ihq =>
    obtain ⟨P, hP⟩ := ihp
    obtain ⟨Q, hQ⟩ := ihq
    exact ⟨_, (isPolynomial_join_left ring hP (.inl hQ)).of_eq_ok result⟩
  | scalarRight ring _ hc result ih =>
    obtain ⟨P, hP⟩ := ih
    obtain ⟨y, hy⟩ := Option.isSome_iff_exists.1 hc
    exact ⟨_, (isPolynomial_join_left ring hP (.inr ⟨y, hy, rfl⟩)).of_eq_ok result⟩
  | scalarLeft ring hc _ result ih =>
    obtain ⟨P, hP⟩ := ih
    obtain ⟨y, hy⟩ := Option.isSome_iff_exists.1 hc
    obtain ⟨n, -, counts, -⟩ | ⟨-, rfl⟩ := exact_cases hy
    · exact ⟨_, (isPolynomial_join_right ring counts hP).of_eq_ok result⟩
    · obtain ⟨cs, rfl, -⟩ := hP
      rw [join_fraction_polynomial ring] at result
      cases result
  | negated _ result ih =>
    obtain ⟨P, hP⟩ := ih
    exact ⟨_, (isPolynomial_negate hP).of_eq_ok result⟩

/-- A polynomial that is reached has a coefficient, and the last of several is not zero. It equals
another one if and only if their values at all integers are equal. The degree of a product of two of
which neither equals the polynomial `zero` is the sum of the degrees. -/
theorem reached_unique {zero : Value} (hp : Reached p) (hq : Reached q)
    (hzero : polynomialOf [intValue 0] = .ok zero) :
    (∃ cs, p = polynomial cs ∧ cs ≠ [] ∧
      ∀ c, cs.getLast? = some c → c.isZero = true → cs.length = 1) ∧
    (same p q = true ↔ ∀ n : ℤ, Agree (evalAt p (intValue n)) (evalAt q (intValue n))) ∧
    (same p zero = false → same q zero = false → ∃ r, join .mul p q = .ok r ∧
      ∃ m n : ℕ, degreeOf p = .ok (intValue m) ∧ degreeOf q = .ok (intValue n) ∧
        degreeOf r = .ok (intValue (m + n))) := by
  obtain ⟨P, hP⟩ := hp.isPolynomial
  obtain ⟨Q, hQ⟩ := hq.isPolynomial
  have hzero : zero.IsPolynomial 0 := by
    have denotes : Polynomial.Denotes fraction? [intValue 0] 0 := .cons_of_eq rfl .nil (by simp)
    exact (isPolynomial_polynomialOf denotes (by simp)).of_eq_ok hzero
  refine ⟨?_, ?_, fun hp0 hq0 => ?_⟩
  · obtain ⟨cs, rfl, hcs⟩ := hP
    exact ⟨cs, rfl, hcs.ne_nil, fun c last => hcs.length_eq_one exact_coefficients last⟩
  · rw [hP.same_iff hQ]
    have values (n : ℤ) : Agree (evalAt p (intValue n)) (evalAt q (intValue n)) ↔
        P.eval (n : ℚ) = Q.eval (n : ℚ) := agree_iff (exact_evalAt hP rfl) (exact_evalAt hQ rfl)
    simp only [values]
    exact ⟨fun equal n => by rw [equal], Polynomial.eq_of_eval_intCast⟩
  · -- degrees are those over the fractions, where no product of two vanishes
    have nonzero : P ≠ 0 := fun h => by
      rw [(hP.same_iff hzero).2 h] at hp0
      contradiction
    have nonzero' : Q ≠ 0 := fun h => by
      rw [(hQ.same_iff hzero).2 h] at hq0
      contradiction
    have ring : Op.mul ∈ ringOps := by decide
    obtain ⟨r, product, hr⟩ := isPolynomial_join_left ring hP (.inl hQ)
    refine ⟨r, product, P.natDegree, Q.natDegree, degreeOf_eq hP, degreeOf_eq hQ, ?_⟩
    rw [degreeOf_eq hr, ringOp, Polynomial.natDegree_mul nonzero nonzero', Nat.cast_add]

/-- The square of `1/2 + 2*x` has degree two. -/
theorem reached_unique_square :
    ∃ p r, polynomialOf [fractionValue (1 / 2), intValue 2] = .ok p ∧ join .mul p p = .ok r ∧
      degreeOf r = .ok (intValue 2) := by
  have exact : ∀ a ∈ [fractionValue (1 / 2), intValue 2], a.fraction?.isSome := by
    intro a ha
    obtain rfl | rfl : a = fractionValue (1 / 2) ∨ a = intValue 2 := by simpa using ha
    · rfl
    · rfl
  have made : polynomialOf [fractionValue (1 / 2), intValue 2] =
      .ok (polynomial [fractionValue (1 / 2), intValue 2]) := rfl
  have reached := Reached.made (by simp) exact made
  have nonzero : same (polynomial [fractionValue (1 / 2), intValue 2])
      (polynomial [intValue 0]) = false := by decide +kernel
  obtain ⟨r, product, m, n, first, second, degree⟩ :=
    (reached_unique reached reached rfl).2.2 nonzero nonzero
  have line {k : ℕ} (h : degreeOf (polynomial [fractionValue (1 / 2), intValue 2]) =
      .ok (intValue k)) : (k : ℤ) = 1 := by
    have one : (.ok (intValue 1) : Outcome Value) = .ok (intValue k) := h
    simpa [intValue, eq_comm] using one
  refine ⟨_, r, made, product, ?_⟩
  rw [degree, line first, line second]
  rfl

end Fluxion.Calculator.Value
