import Mathlib.Algebra.Polynomial.Roots
import Mathlib.Tactic.Ring
import Fluxion.Polynomial

/-!
# Polynomials with exact coefficients

Coefficients of an exact kind stand for fractions, and the operations on them have results that
stand for the results on the fractions (`Coefficients.Exact`). Lists of such coefficients denote
polynomials over the fractions, in ascending powers (`Denotes`). Each loop over coefficients comes
to an end with a result, which denotes what the operation makes of the polynomials: padded sums and
differences (`denotes_zipCoeffs`), sums of shifted multiples (`denotes_addProducts`) and nested
multiplication (`exact_evalCoeffs`).

The zeros at the end denote nothing, and without them no two lists denote one polynomial. A list
without them *represents* a polynomial (`Represents`): its length is the degree and one, which the
zero polynomial has like every constant.
-/

open scoped Polynomial

namespace Fluxion
set_option autoImplicit false

section Outcomes

variable {α β : Type} {P : α → Prop} {Q : β → Prop}

/-- The outcome is a result with the property. -/
def Gives (outcome : Outcome α) (P : α → Prop) : Prop := ∃ a, outcome = .ok a ∧ P a

theorem Gives.of_ok {a : α} (h : P a) : Gives (.ok a) P := ⟨a, rfl, h⟩

/-- A step that gives what the next one asks for. -/
theorem Gives.bind {outcome : Outcome α} {next : α → Outcome β} (h : Gives outcome P)
    (step : ∀ a, P a → Gives (next a) Q) : Gives (outcome >>= next) Q := by
  obtain ⟨a, rfl, ha⟩ := h
  exact step a ha

theorem Gives.of_eq_ok {outcome : Outcome α} {a : α} (h : Gives outcome P)
    (result : outcome = .ok a) : P a := by
  obtain ⟨b, same, hb⟩ := h
  rw [result] at same
  cases same
  exact hb

end Outcomes

variable {α : Type} {R : Coefficients α} {fraction? : α → Option ℚ}

/-- The operations have results on coefficients of an exact kind, which stand for the results on
the fractions that `fraction?` gives for them. -/
structure Coefficients.Exact (R : Coefficients α) (fraction? : α → Option ℚ) : Prop where
  ofInt : ∀ n : ℤ, fraction? (R.ofInt n) = some (n : ℚ)
  add : ∀ {a b x y}, fraction? a = some x → fraction? b = some y →
    Gives (R.add a b) (fraction? · = some (x + y))
  sub : ∀ {a b x y}, fraction? a = some x → fraction? b = some y →
    Gives (R.sub a b) (fraction? · = some (x - y))
  mul : ∀ {a b x y}, fraction? a = some x → fraction? b = some y →
    Gives (R.mul a b) (fraction? · = some (x * y))
  isZero_iff : ∀ {a x}, fraction? a = some x → (R.isZero a = true ↔ x = 0)

namespace Polynomial

/-- The coefficients stand for those of the polynomial, in ascending powers; there may be zeros at
the end. -/
inductive Denotes (fraction? : α → Option ℚ) : List α → ℚ[X] → Prop where
  | nil : Denotes fraction? [] 0
  | cons {a x cs P} : fraction? a = some x → Denotes fraction? cs P →
    Denotes fraction? (a :: cs) (Polynomial.C x + Polynomial.X * P)

/-- The coefficients stand for those of the polynomial up to its degree. -/
structure Represents (fraction? : α → Option ℚ) (cs : List α) (P : ℚ[X]) : Prop where
  denotes : Denotes fraction? cs P
  length_eq : cs.length = P.natDegree + 1

variable {P Q S : ℚ[X]} {a b : α} {x : ℚ} {as bs cs : List α}

/-- A coefficient in front of a list that denotes a polynomial. -/
theorem Denotes.cons_of_eq (ha : fraction? a = some x) (hcs : Denotes fraction? cs P)
    (same : Polynomial.C x + Polynomial.X * P = Q) : Denotes fraction? (a :: cs) Q :=
  same ▸ .cons ha hcs

/-- The first coefficient of a list that denotes a polynomial, and the rest. -/
theorem Denotes.uncons (h : Denotes fraction? (a :: cs) P) :
    ∃ x T, fraction? a = some x ∧ Denotes fraction? cs T ∧
      P = Polynomial.C x + Polynomial.X * T := by
  cases h with
  | cons ha hcs => exact ⟨_, _, ha, hcs, rfl⟩

theorem Represents.length_pos (h : Represents fraction? cs P) : 0 < cs.length := by
  rw [h.length_eq]
  exact Nat.succ_pos _

theorem Represents.ne_nil (h : Represents fraction? cs P) : cs ≠ [] :=
  List.length_pos_iff.1 h.length_pos

/-- One coefficient represents a constant polynomial, zero or not. -/
theorem represents_singleton (ha : fraction? a = some x) :
    Represents fraction? [a] (Polynomial.C x) where
  denotes := .cons_of_eq ha .nil (by simp)
  length_eq := by simp

/-! ### Zeros at the end -/

section Trimmed

variable {isZero : α → Bool}

/-- What is left is the front of the coefficients. -/
theorem trim_prefix (isZero : α → Bool) (cs : List α) : trim isZero cs <+: cs := by
  induction cs with
  | nil => exact List.nil_prefix
  | cons c rest ih =>
    unfold trim
    split
    · exact List.cons_prefix_cons.2 ⟨rfl, List.nil_prefix⟩
    · rename_i d single
      rw [single] at ih
      split
      · exact List.cons_prefix_cons.2 ⟨rfl, List.nil_prefix⟩
      · exact List.cons_prefix_cons.2 ⟨rfl, ih⟩
    · exact List.cons_prefix_cons.2 ⟨rfl, ih⟩

/-- Nothing is cut off after a coefficient that is not zero. -/
theorem trim_cons_eq (a : α) (last : ∀ d, cs.getLast? = some d → isZero d = false) :
    trim isZero (a :: cs) = a :: cs := by
  induction cs generalizing a with
  | nil => rfl
  | cons b bs ih =>
    have rest : trim isZero (b :: bs) = b :: bs := by
      refine ih b fun d found => last d ?_
      rw [List.getLast?_cons, found]
      rfl
    rw [trim, rest]
    cases bs with
    | nil => simp [last b rfl]
    | cons => rfl

/-- Of zeros alone, one is left. -/
theorem trim_replicate {z : α} (zero : isZero z = true) (n : ℕ) :
    trim isZero (List.replicate (n + 1) z) = [z] := by
  induction n with
  | zero => rfl
  | succ n ih =>
    rw [List.replicate_succ, trim, ih]
    exact if_pos zero

end Trimmed

/-- One more coefficient in front of those of a polynomial other than zero. -/
theorem Represents.cons (ha : fraction? a = some x) (rest : Represents fraction? cs P)
    (nonzero : P ≠ 0) :
    Represents fraction? (a :: cs) (Polynomial.C x + Polynomial.X * P) where
  denotes := .cons ha rest.denotes
  length_eq := by
    rw [List.length_cons, rest.length_eq, Polynomial.natDegree_C_add,
      Polynomial.natDegree_X_mul nonzero]

theorem Denotes.eq_C (h : Denotes fraction? [a] P) :
    ∃ x, fraction? a = some x ∧ P = Polynomial.C x := by
  obtain ⟨x, T, ha, rest, rfl⟩ := h.uncons
  cases rest
  exact ⟨x, ha, by simp⟩

/-- Without the zeros at the end, coefficients represent what they denoted. -/
theorem Denotes.trim (E : R.Exact fraction?) (h : Denotes fraction? cs P)
    (nonempty : 0 < cs.length) :
    Represents fraction? (trim R.isZero cs) P := by
  induction h with
  | nil => exact absurd nonempty (Nat.lt_irrefl 0)
  | @cons a x cs P ha hcs ih =>
    by_cases last : cs = []
    · subst last
      exact ⟨.cons ha hcs, by cases hcs; simp [Polynomial.trim]⟩
    · have rest := ih (List.length_pos_iff.2 last)
      unfold Polynomial.trim
      split
      · rename_i empty
        exact absurd empty rest.ne_nil
      · rename_i d single
        rw [single] at rest
        obtain ⟨y, hd, rfl⟩ := rest.denotes.eq_C
        split
        · rename_i zero
          obtain rfl := (E.isZero_iff hd).1 zero
          rw [map_zero, mul_zero, add_zero]
          exact represents_singleton ha
        · rename_i nonzero
          exact .cons ha rest fun h => nonzero ((E.isZero_iff hd).2 (Polynomial.C_eq_zero.1 h))
      · rename_i tail _ several
        refine .cons ha rest ?_
        -- the coefficients of zero are a single one
        rintro rfl
        obtain ⟨d, single⟩ := List.length_eq_one_iff.1 rest.length_eq
        exact several d single

/-- Dropping the zeros at the top of a list keeps its polynomial and makes it normal. -/
theorem Denotes.ofList (E : R.Exact fraction?) (h : Denotes fraction? cs P)
    (nonempty : 0 < cs.length) :
    Represents fraction? (ofList R cs).coeffs P := by
  have trimmed := h.trim E nonempty
  unfold Polynomial.ofList
  split
  · rename_i empty
    exact absurd empty trimmed.ne_nil
  · exact trimmed

/-! ### Sums and differences -/

/-- Coefficients joined in pairs, by an operation that adds a multiple of its second operand. -/
theorem denotes_zipCoeffs (E : R.Exact fraction?) {op : α → α → Outcome α} {s : ℚ}
    (adds : ∀ {a b x y}, fraction? a = some x → fraction? b = some y →
      Gives (op a b) (fraction? · = some (x + s * y)))
    (has : Denotes fraction? as P) (hbs : Denotes fraction? bs Q) :
    Gives (zipCoeffs (R.ofInt 0) op as bs) fun cs =>
      Denotes fraction? cs (P + Polynomial.C s * Q) ∧ cs.length = max as.length bs.length := by
  have zero : fraction? (R.ofInt 0) = some 0 := by simpa using E.ofInt 0
  fun_induction zipCoeffs (R.ofInt 0) op as bs generalizing P Q with
  | case1 =>
    cases has
    cases hbs
    exact .of_ok ⟨by simpa using .nil, rfl⟩
  | case2 a as ih =>
    cases hbs
    cases has with
    | @cons _ x _ P ha has =>
      refine (adds ha zero).bind fun c hc => (ih has .nil).bind fun cs hcs => .of_ok ⟨?_, ?_⟩
      · refine .cons_of_eq hc hcs.1 ?_
        simp
      · simp [hcs.2]
  | case3 b bs ih =>
    cases has
    cases hbs with
    | @cons _ y _ Q hb hbs =>
      refine (adds zero hb).bind fun c hc => (ih .nil hbs).bind fun cs hcs => .of_ok ⟨?_, ?_⟩
      · refine .cons_of_eq hc hcs.1 ?_
        simp only [zero_add, map_mul]
        ring
      · simp [hcs.2]
  | case4 a as b bs ih =>
    cases has with
    | @cons _ x _ P ha has =>
    cases hbs with
    | @cons _ y _ Q hb hbs =>
      refine (adds ha hb).bind fun c hc => (ih has hbs).bind fun cs hcs => .of_ok ⟨?_, ?_⟩
      · refine .cons_of_eq hc hcs.1 ?_
        simp only [map_add, map_mul]
        ring
      · simp [hcs.2]

/-- Coefficients are added in pairs, with zeros beyond the shorter list. -/
theorem denotes_zip_add (E : R.Exact fraction?) (has : Denotes fraction? as P)
    (hbs : Denotes fraction? bs Q) :
    Gives (zipCoeffs (R.ofInt 0) R.add as bs) fun cs =>
      Denotes fraction? cs (P + Q) ∧ cs.length = max as.length bs.length := by
  have sum := denotes_zipCoeffs E (s := 1) (fun ha hb => by simpa using E.add ha hb) has hbs
  rwa [map_one, one_mul] at sum

theorem denotes_zip_sub (E : R.Exact fraction?) (has : Denotes fraction? as P)
    (hbs : Denotes fraction? bs Q) :
    Gives (zipCoeffs (R.ofInt 0) R.sub as bs) fun cs =>
      Denotes fraction? cs (P - Q) ∧ cs.length = max as.length bs.length := by
  have difference := denotes_zipCoeffs E (s := -1)
    (fun ha hb => by simpa [sub_eq_add_neg] using E.sub ha hb) has hbs
  rwa [map_neg, map_one, neg_one_mul, ← sub_eq_add_neg] at difference

variable {p q : Polynomial α}

theorem represents_add (E : R.Exact fraction?) (hp : Represents fraction? p.coeffs P)
    (hq : Represents fraction? q.coeffs Q) :
    Gives (p.add R q) fun r => Represents fraction? r.coeffs (P + Q) := by
  refine (denotes_zip_add E hp.denotes hq.denotes).bind fun cs hcs => .of_ok ?_
  exact hcs.1.ofList E (hcs.2 ▸ lt_max_of_lt_left hp.length_pos)

theorem represents_sub (E : R.Exact fraction?) (hp : Represents fraction? p.coeffs P)
    (hq : Represents fraction? q.coeffs Q) :
    Gives (p.sub R q) fun r => Represents fraction? r.coeffs (P - Q) := by
  refine (denotes_zip_sub E hp.denotes hq.denotes).bind fun cs hcs => .of_ok ?_
  exact hcs.1.ofList E (hcs.2 ▸ lt_max_of_lt_left hp.length_pos)

/-! ### Products -/

theorem addMultiples_nil (R : Coefficients α) (a : α) (cs : List α) :
    addMultiples R a cs [] = .ok cs := by
  cases cs <;> rfl

/-- A multiple of one polynomial is added into a list long enough to hold it. -/
theorem denotes_addMultiples (E : R.Exact fraction?) (ha : fraction? a = some x)
    (hcs : Denotes fraction? cs S) (hbs : Denotes fraction? bs Q) (room : bs.length ≤ cs.length) :
    Gives (addMultiples R a cs bs) fun rs =>
      Denotes fraction? rs (S + Polynomial.C x * Q) ∧ rs.length = cs.length := by
  induction hbs generalizing cs S with
  | nil =>
    rw [addMultiples_nil, mul_zero, add_zero]
    exact .of_ok ⟨hcs, rfl⟩
  | @cons b y bs Q hb hbs ih =>
    cases hcs with
    | nil => simp at room
    | @cons c z cs S hc hcs =>
      refine (E.mul ha hb).bind fun m hm => (E.add hc hm).bind fun t ht => ?_
      refine (ih hcs (by simpa using room)).bind fun rs hrs => .of_ok ⟨?_, by simp [hrs.2]⟩
      refine .cons_of_eq ht hrs.1 ?_
      simp only [map_add, map_mul]
      ring

/-- The products of all pairs of coefficients, each added in its place; there is a place for every
product. -/
theorem denotes_addProducts (E : R.Exact fraction?) (has : Denotes fraction? as P)
    (hcs : Denotes fraction? cs S) (hbs : Denotes fraction? bs Q) (nonempty : 0 < bs.length)
    (room : as.length + bs.length ≤ cs.length + 1) :
    Gives (addProducts R bs as cs) fun rs =>
      Denotes fraction? rs (S + P * Q) ∧ rs.length = cs.length := by
  induction has generalizing cs S with
  | nil =>
    rw [zero_mul, add_zero]
    exact .of_ok ⟨hcs, rfl⟩
  | @cons a x as P ha has ih =>
    rw [List.length_cons] at room
    refine (denotes_addMultiples E ha hcs hbs (by omega)).bind fun ts hts => ?_
    obtain ⟨denotes, length⟩ := hts
    cases ts with
    | nil =>
      simp at length
      omega
    | cons t ts =>
      obtain ⟨z, T, ht, hts, sum⟩ := denotes.uncons
      rw [List.length_cons] at length
      refine (ih hts (by omega)).bind fun rs hrs => .of_ok ⟨?_, by simp [hrs.2, length]⟩
      refine .cons_of_eq ht hrs.1 ?_
      rw [mul_add, ← add_assoc, ← sum]
      ring

/-- A list of zeros denotes the zero polynomial. -/
theorem denotes_replicate (E : R.Exact fraction?) (n : ℕ) :
    Denotes fraction? (List.replicate n (R.ofInt 0)) 0 := by
  induction n with
  | zero => exact .nil
  | succ n ih => exact .cons_of_eq (E.ofInt 0) ih (by simp)

/-- The product is collected row by row into a list of zeros. -/
theorem represents_mul (E : R.Exact fraction?) (hp : Represents fraction? p.coeffs P)
    (hq : Represents fraction? q.coeffs Q) :
    Gives (p.mul R q) fun r => Represents fraction? r.coeffs (P * Q) := by
  have := hp.length_pos
  have := hq.length_pos
  have products := denotes_addProducts E hp.denotes
    (denotes_replicate E (p.coeffs.length + q.coeffs.length - 1)) hq.denotes hq.length_pos
    (by rw [List.length_replicate]; omega)
  refine products.bind fun cs hcs => .of_ok ?_
  rw [zero_add, List.length_replicate] at hcs
  exact hcs.1.ofList E (by omega)

/-! ### Values -/

/-- Nested multiplication gives the value of the polynomial. -/
theorem exact_evalCoeffs (E : R.Exact fraction?) (hcs : Denotes fraction? cs P)
    (ha : fraction? a = some x) :
    Gives (evalCoeffs R a cs) (fraction? · = some (P.eval x)) := by
  induction hcs with
  | nil => exact .of_ok (by simpa using E.ofInt 0)
  | @cons c y cs P hc hcs ih =>
    refine ih.bind fun total htotal => (E.mul htotal ha).bind fun m hm => ?_
    have value : (Polynomial.C y + Polynomial.X * P).eval x = P.eval x * x + y := by
      simp
      ring
    rw [value]
    exact E.add hm hc

/-- The sum of the coefficients times the powers of `x`. -/
def powerSum (ys : List ℚ) (x : ℚ) : ℚ := ∑ i : Fin ys.length, ys[i] * x ^ (i : ℕ)

theorem powerSum_cons (y : ℚ) (ys : List ℚ) (x : ℚ) :
    powerSum (y :: ys) x = y + x * powerSum ys x := by
  calc powerSum (y :: ys) x
      = y * x ^ 0 + ∑ i : Fin ys.length, ys[i] * x ^ ((i : ℕ) + 1) :=
        Fin.sum_univ_succ fun i : Fin (ys.length + 1) => (y :: ys)[i] * x ^ (i : ℕ)
    _ = y + x * powerSum ys x := by
        rw [powerSum, Finset.mul_sum, pow_zero, mul_one]
        refine congrArg (y + ·) (Finset.sum_congr rfl fun i _ => ?_)
        rw [pow_succ]
        ring

/-- The fractions that the coefficients of a polynomial stand for, and its values as their sums. -/
theorem Denotes.exists_fractions (hcs : Denotes fraction? cs P) :
    ∃ ys : List ℚ, cs.map fraction? = ys.map some ∧ ∀ x, P.eval x = powerSum ys x := by
  induction hcs with
  | nil => exact ⟨[], rfl, fun x => by simp [powerSum]⟩
  | @cons c y cs P hc hcs ih =>
    obtain ⟨ys, same, value⟩ := ih
    refine ⟨y :: ys, by rw [List.map_cons, List.map_cons, hc, same], fun x => ?_⟩
    rw [powerSum_cons, ← value]
    simp

/-- Coefficients that stand for fractions denote the polynomial of these. -/
theorem exists_denotes {ys : List ℚ} (same : cs.map fraction? = ys.map some) :
    ∃ P : ℚ[X], Denotes fraction? cs P ∧ ∀ x, P.eval x = powerSum ys x := by
  induction cs generalizing ys with
  | nil =>
    obtain rfl : ys = [] := by simpa using same.symm
    exact ⟨0, .nil, fun x => by simp [powerSum]⟩
  | cons c cs ih =>
    cases ys with
    | nil => simp at same
    | cons y ys =>
      rw [List.map_cons, List.map_cons, List.cons.injEq] at same
      obtain ⟨P, hP, value⟩ := ih same.2
      refine ⟨_, .cons same.1 hP, fun x => ?_⟩
      rw [powerSum_cons, ← value]
      simp

/-! ### Equality -/

/-- A polynomial determines its constant term and what is above it. -/
theorem C_add_X_mul_inj {x y : ℚ} :
    Polynomial.C x + Polynomial.X * P = Polynomial.C y + Polynomial.X * Q ↔ x = y ∧ P = Q := by
  refine ⟨fun same => ⟨?_, ?_⟩, fun ⟨hx, hP⟩ => by rw [hx, hP]⟩
  · simpa using congrArg (·.coeff 0) same
  · ext n
    simpa using congrArg (·.coeff (n + 1)) same

/-- Equally many coefficients denote one polynomial if and only if they stand for the same
fractions. -/
theorem Denotes.forall₂_iff (has : Denotes fraction? as P) (hbs : Denotes fraction? bs Q)
    (length : as.length = bs.length) :
    List.Forall₂ (fun a b => fraction? a = fraction? b) as bs ↔ P = Q := by
  induction has generalizing bs Q with
  | nil =>
    obtain rfl := List.length_eq_zero_iff.1 length.symm
    cases hbs
    simp
  | @cons a x as P ha has ih =>
    cases hbs with
    | nil => simp at length
    | @cons b y bs Q hb hbs =>
      rw [List.forall₂_cons, ih hbs (by simpa using length), C_add_X_mul_inj, ha, hb,
        Option.some_inj]

/-- The coefficients that represent a polynomial are unique up to their kinds. -/
theorem Represents.forall₂_iff (has : Represents fraction? as P) (hbs : Represents fraction? bs Q) :
    List.Forall₂ (fun a b => fraction? a = fraction? b) as bs ↔ P = Q := by
  refine ⟨fun same => ?_, fun same => ?_⟩
  · exact (has.denotes.forall₂_iff hbs.denotes same.length_eq).1 same
  · refine (has.denotes.forall₂_iff hbs.denotes ?_).2 same
    rw [has.length_eq, hbs.length_eq, same]

/-- The coefficients stand for those of the polynomial place by place. -/
theorem Denotes.coeff_eq (hcs : Denotes fraction? cs P) {i : ℕ} (found : cs[i]? = some a) :
    fraction? a = some (P.coeff i) := by
  induction hcs generalizing i with
  | nil => simp at found
  | @cons c y cs P hc hcs ih =>
    cases i with
    | zero =>
      obtain rfl : c = a := by simpa using found
      simpa using hc
    | succ i =>
      rw [ih (by simpa using found)]
      simp

/-- The last coefficient is not zero, unless it is the only one. -/
theorem Represents.length_eq_one (E : R.Exact fraction?) (hcs : Represents fraction? cs P)
    (last : cs.getLast? = some a) (zero : R.isZero a = true) : cs.length = 1 := by
  rw [List.getLast?_eq_getElem?] at last
  have leading := (E.isZero_iff (hcs.denotes.coeff_eq last)).1 zero
  rw [hcs.length_eq, Nat.add_sub_cancel] at leading
  rw [hcs.length_eq, Polynomial.leadingCoeff_eq_zero.1 leading, Polynomial.natDegree_zero]

/-- The first coefficient does not matter to what is cut off at the end. -/
theorem Represents.trim_cons (E : R.Exact fraction?) (hcs : Represents fraction? (b :: cs) P)
    (a : α) : trim R.isZero (a :: cs) = a :: cs := by
  refine trim_cons_eq a fun d last => ?_
  by_contra zero
  have found : (b :: cs).getLast? = some d := by
    rw [List.getLast?_cons, last]
    rfl
  have single := hcs.length_eq_one E found (by simpa using zero)
  obtain rfl : cs = [] := by simpa using single
  cases last

/-- Polynomials are equal if their values at all integers are. -/
theorem eq_of_eval_intCast (same : ∀ n : ℤ, P.eval (n : ℚ) = Q.eval (n : ℚ)) : P = Q := by
  refine Polynomial.eq_of_infinite_eval_eq P Q ?_
  refine (Set.infinite_range_of_injective (Int.cast_injective (α := ℚ))).mono ?_
  rintro _ ⟨n, rfl⟩
  exact same n

end Polynomial

end Fluxion
