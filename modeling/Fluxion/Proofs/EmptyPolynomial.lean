import Fluxion.Proofs.NearestDouble
import Fluxion.Proofs.PolynomialRing

/-!
# The polynomial of no coefficients

The polynomial of no coefficients is the constant `0.0`, a double, where every other zero of the
arithmetic is the integer `0`. A sum makes a double of the first coefficient beside it
(`join_empty_sum`), and a product makes doubles of all coefficients (`join_empty_product`). So it
takes the place of zero for the numbers that doubles hold, and for no others (`empty_zero`): a
fraction does not join a double, an integer may be too large for one, and above `2 ^ 53` it may
change on the way.
-/

open scoped Polynomial

namespace Fluxion.Calculator.Value
set_option autoImplicit false

open Number (doubleOfInt finiteValue?)

variable {op : Op} {c v : Value} {a : Number} {y : ℚ} {n : ℤ} {x : Float} {P : ℚ[X]}
variable {cs rs rest : List Value}

/-! ### Numbers beside the zero -/

/-- The double that a number becomes beside the double zero, if it does. -/
def besideZero (v : Value) : Outcome Float :=
  match v.number? with
  | some (.int n) => doubleOfInt n
  | some (.double x) => .ok x
  | some (.fraction _) => .error (Number.noFraction 0)
  | none => .error .typeMismatch

/-- Beside the double zero the number stays what it is. -/
def Kept (v : Value) : Prop := ∃ x, besideZero v = .ok x ∧ finiteValue? x = v.fraction?

theorem number?_of_int? (hv : v.int? = some n) : v.number? = some (.int n) := by
  unfold int? at hv
  split at hv
  · rename_i counts
    cases hv
    exact counts
  · cases hv

theorem besideZero_int (hv : v.number? = some (.int n)) : besideZero v = doubleOfInt n := by
  rw [besideZero, hv]

/-- An exact number beside a zero of the other kind never becomes the negative zero. -/
theorem isPlain_besideZero (hv : v.fraction? = some y) (h : besideZero v = .ok x) :
    Decimal.IsPlain x := by
  obtain ⟨n, -, counts, -⟩ | ⟨-, rfl⟩ := exact_cases hv
  · rw [besideZero_int counts, doubleOfInt] at h
    split at h
    · rename_i nearest
      cases h
      exact Decimal.isPlain_ofInt? nearest
    · cases h
  · cases h

/-- Integers up to `2 ^ 53` in size are kept. -/
theorem kept_of_natAbs_le (hv : v.int? = some n) (small : n.natAbs ≤ 2 ^ 53) : v.Kept := by
  have counts := number?_of_int? hv
  obtain ⟨x, nearest, value⟩ := Decimal.finiteValue?_ofInt? small
  refine ⟨x, ?_, ?_⟩
  · rw [besideZero_int counts, doubleOfInt, nearest]
  · rw [value, fraction?, counts]
    rfl

/-- The zero on the left of a number. -/
theorem joinNested_zero_left (depth : ℕ) (ring : op ∈ ringOps) (hv : v.number? = some a) :
    joinNested depth op (doubleValue 0) v = do
      return doubleValue (ringOp op 0 (← besideZero v)) := by
  rw [joinNested_numbers depth rfl hv, besideZero, hv]
  cases op with
  | div | pow => simp [ringOps] at ring
  | add | sub | mul =>
    cases a with
    | int n => exact bind_assoc (doubleOfInt n) _ _
    | double | fraction => rfl

/-- The zero on the right of a number. -/
theorem joinNested_zero_right (depth : ℕ) (ring : op ∈ ringOps) (hv : v.number? = some a) :
    joinNested depth op v (doubleValue 0) = do
      return doubleValue (ringOp op (← besideZero v) 0) := by
  rw [joinNested_numbers depth hv rfl, besideZero, hv]
  cases op with
  | div | pow => simp [ringOps] at ring
  | add | sub | mul =>
    cases a with
    | int n => exact bind_assoc (doubleOfInt n) _ _
    | double | fraction => rfl

/-- Doubles that a number becomes, changed by something that changes no plain double. -/
theorem besideZero_bind {f : Float → Float} (hc : c.fraction? = some y)
    (keeps : ∀ x, Decimal.IsPlain x → f x = x) :
    (do return doubleValue (f (← besideZero c)) : Outcome Value) = do
      return doubleValue (← besideZero c) := by
  cases beside : besideZero c with
  | error => rfl
  | ok x => exact congrArg (Except.ok <| doubleValue ·) (keeps x (isPlain_besideZero hc beside))

/-- The double zero makes a double of what is added to it. -/
theorem joinNested_zero_add (depth : ℕ) (hc : c.fraction? = some y) :
    joinNested depth .add (doubleValue 0) c = do return doubleValue (← besideZero c) := by
  obtain ⟨a, counts, -⟩ := Option.bind_eq_some_iff.1 hc
  rw [joinNested_zero_left depth (by decide) counts]
  exact besideZero_bind hc fun x => Decimal.zero_add_double

theorem joinNested_add_zero (depth : ℕ) (hc : c.fraction? = some y) :
    joinNested depth .add c (doubleValue 0) = do return doubleValue (← besideZero c) := by
  obtain ⟨a, counts, -⟩ := Option.bind_eq_some_iff.1 hc
  rw [joinNested_zero_right depth (by decide) counts]
  exact besideZero_bind hc fun x => Decimal.add_zero_double

theorem joinNested_sub_zero (depth : ℕ) (hc : c.fraction? = some y) :
    joinNested depth .sub c (doubleValue 0) = do return doubleValue (← besideZero c) := by
  obtain ⟨a, counts, -⟩ := Option.bind_eq_some_iff.1 hc
  rw [joinNested_zero_right depth (by decide) counts]
  exact besideZero_bind hc fun x => Decimal.sub_zero_double

/-! ### Sums -/

/-- What a zero and a polynomial make that is the polynomial again. -/
def sumsWith (z p : Value) : List (Outcome Value) := [join .add z p, join .add p z, join .sub p z]

/-- Coefficients joined in pairs, of which the first becomes a double and the others stay those of a
polynomial. -/
theorem polynomial_zip {inner : Op → Value → Value → Outcome Value}
    {onPair : Value → Value → Outcome Value} {a b : Value} {as bs : List Value}
    (E : (coefficientsBy inner).Exact fraction?)
    (hp : Polynomial.Represents fraction? (c :: rest) P)
    (first : onPair a b = do return doubleValue (← besideZero c))
    (others : ∀ T, Polynomial.Denotes fraction? rest T →
      Gives (Polynomial.zipCoeffs (intValue 0) onPair as bs) fun rs =>
        Polynomial.Denotes fraction? rs T ∧ rs.length = rest.length) :
    ∃ rs, allSame rs rest = true ∧
      (do
        let sums ← Polynomial.zipCoeffs (intValue 0) onPair (a :: as) (b :: bs)
        return polynomial (Polynomial.ofList (coefficientsBy inner) sums).coeffs) =
        (do return polynomial (doubleValue (← besideZero c) :: rs) : Outcome Value) := by
  obtain ⟨y, T, hc, hrest, rfl⟩ := hp.denotes.uncons
  obtain ⟨rs, zipped, hrs, length⟩ := others T hrest
  refine ⟨rs, ?_, ?_⟩
  · rw [allSame_iff hrs hrest]
    exact (hrs.forall₂_iff hrest length).2 rfl
  · -- with the first coefficient put back they represent the polynomial, so no zeros end them
    have restored : Polynomial.Represents fraction? (c :: rs)
        (Polynomial.C y + Polynomial.X * T) :=
      ⟨.cons hc hrs, by rw [List.length_cons, length, ← hp.length_eq, List.length_cons]⟩
    rw [Polynomial.zipCoeffs, first, zipped]
    cases besideZero c with
    | error => rfl
    | ok x =>
      have trimmed := restored.trim_cons E (doubleValue x)
      have whole : (Polynomial.ofList (coefficientsBy inner) (doubleValue x :: rs)).coeffs =
          doubleValue x :: rs := by rw [Polynomial.ofList, trimmed]
      exact congrArg (Except.ok <| polynomial ·) whole

/-- The polynomial of no coefficients makes a double of the first coefficient of the other operand
of a sum, and of a difference that it is taken from. -/
theorem join_empty_sum {sum : Outcome Value}
    (hp : Polynomial.Represents fraction? (c :: rest) P)
    (hsum : sum ∈ sumsWith (polynomial [doubleValue 0]) (polynomial (c :: rest))) :
    ∃ rs, allSame rs rest = true ∧
      sum = do return polynomial (doubleValue (← besideZero c) :: rs) := by
  obtain ⟨y, -, hc, -, -⟩ := hp.denotes.uncons
  simp only [sumsWith, List.mem_cons, List.not_mem_nil, or_false] at hsum
  obtain rfl | rfl | rfl := hsum
  · obtain ⟨depth, deeper⟩ := join_polynomial_left .add [doubleValue 0] (polynomial (c :: rest))
    have E := exact_nested depth
    obtain ⟨rs, same, result⟩ := polynomial_zip E hp (joinNested_zero_add depth hc) fun T hT => by
      have padded := Polynomial.denotes_zip_add E .nil hT
      rwa [zero_add, List.length_nil, Nat.zero_max] at padded
    exact ⟨rs, same, deeper.trans ((bind_assoc _ _ _).trans result)⟩
  · obtain ⟨depth, deeper⟩ := join_polynomial_left .add (c :: rest) (polynomial [doubleValue 0])
    have E := exact_nested depth
    obtain ⟨rs, same, result⟩ := polynomial_zip E hp (joinNested_add_zero depth hc) fun T hT => by
      have padded := Polynomial.denotes_zip_add E hT .nil
      rwa [add_zero, List.length_nil, Nat.max_zero] at padded
    exact ⟨rs, same, deeper.trans ((bind_assoc _ _ _).trans result)⟩
  · obtain ⟨depth, deeper⟩ := join_polynomial_left .sub (c :: rest) (polynomial [doubleValue 0])
    have E := exact_nested depth
    obtain ⟨rs, same, result⟩ := polynomial_zip E hp (joinNested_sub_zero depth hc) fun T hT => by
      have padded := Polynomial.denotes_zip_sub E hT .nil
      rwa [sub_zero, List.length_nil, Nat.max_zero] at padded
    exact ⟨rs, same, deeper.trans ((bind_assoc _ _ _).trans result)⟩

/-! ### Products -/

/-- What a zero and a polynomial make that is zero. -/
def productsWith (z p : Value) : List (Outcome Value) := [join .mul z p, join .mul p z]

theorem double_zero_eq : (Number.double 0).eq (.int 0) = true := by
  simp [Number.eq, Decimal.finiteValue?_zero]

theorem isZero_doubleValue_zero : isZero (doubleValue 0) = true := by
  simp [isZero, doubleValue, number?, Number.isZero, double_zero_eq]

theorem joinNested_zero_add_double (depth : ℕ) (x : Float) :
    joinNested depth .add (intValue 0) (doubleValue x) = .ok (doubleValue (0 + x)) := by
  have nearest : Decimal.ofInt? 0 = some 0 := by decide
  have zero : doubleOfInt 0 = .ok 0 := by rw [doubleOfInt, nearest]
  rw [joinNested_numbers depth rfl rfl]
  exact congrArg (fun o => do return number (.double ((← o) + x))) zero

/-- What a product with the zero, added to a zero, comes to. -/
theorem besideZero_product {f : Float → Float} (depth : ℕ) (hc : c.fraction? = some y)
    (vanishes : ∀ x, Decimal.IsPlain x → 0 + f x = 0) {product : Outcome Value}
    (hproduct : product = do return doubleValue (f (← besideZero c))) :
    product >>= joinNested depth .add (intValue 0) = do
      let _ ← besideZero c
      return doubleValue 0 := by
  subst hproduct
  cases beside : besideZero c with
  | error => rfl
  | ok x =>
    have zero := vanishes x (isPlain_besideZero hc beside)
    exact (joinNested_zero_add_double depth (f x)).trans
      (congrArg (Except.ok <| doubleValue ·) zero)

/-- A product with the double zero is zero, if the other factor has a double. -/
theorem zero_mul_product (depth : ℕ) (hc : c.fraction? = some y) :
    joinNested depth .mul (doubleValue 0) c >>= joinNested depth .add (intValue 0) = do
      let _ ← besideZero c
      return doubleValue 0 := by
  obtain ⟨a, counts, -⟩ := Option.bind_eq_some_iff.1 hc
  exact besideZero_product depth hc (fun x => Decimal.zero_add_zero_mul)
    (joinNested_zero_left depth (by decide) counts)

theorem mul_zero_product (depth : ℕ) (hc : c.fraction? = some y) :
    joinNested depth .mul c (doubleValue 0) >>= joinNested depth .add (intValue 0) = do
      let _ ← besideZero c
      return doubleValue 0 := by
  obtain ⟨a, counts, -⟩ := Option.bind_eq_some_iff.1 hc
  exact besideZero_product depth hc (fun x => Decimal.zero_add_mul_zero)
    (joinNested_zero_right depth (by decide) counts)

/-- Multiples of the zero, one in each place. -/
theorem addMultiples_zero (depth : ℕ) (hcs : Polynomial.Denotes fraction? cs P) :
    Polynomial.addMultiples (coefficientsBy (joinNested depth)) (doubleValue 0)
      (List.replicate cs.length (intValue 0)) cs = do
        let _ ← cs.mapM besideZero
        return List.replicate cs.length (doubleValue 0) := by
  induction hcs with
  | nil => rfl
  | @cons c y cs P hc hcs ih =>
    have first := zero_mul_product depth hc
    calc Polynomial.addMultiples (coefficientsBy (joinNested depth)) (doubleValue 0)
          (List.replicate (c :: cs).length (intValue 0)) (c :: cs)
        = (do
            let t ← joinNested depth .mul (doubleValue 0) c >>= joinNested depth .add (intValue 0)
            let ts ← Polynomial.addMultiples (coefficientsBy (joinNested depth)) (doubleValue 0)
              (List.replicate cs.length (intValue 0)) cs
            return t :: ts) := (bind_assoc (joinNested depth .mul (doubleValue 0) c) _ _).symm
      _ = _ := by
        rw [first, ih, List.mapM_cons]
        cases besideZero c with
        | error => rfl
        | ok => cases cs.mapM besideZero <;> rfl

/-- Multiples of the coefficients by the zero alone, each in its place. -/
theorem addProducts_zero (depth : ℕ) (hcs : Polynomial.Denotes fraction? cs P) :
    Polynomial.addProducts (coefficientsBy (joinNested depth)) [doubleValue 0] cs
      (List.replicate cs.length (intValue 0)) = do
        let _ ← cs.mapM besideZero
        return List.replicate cs.length (doubleValue 0) := by
  induction hcs with
  | nil => rfl
  | @cons c y cs P hc hcs ih =>
    have first := mul_zero_product depth hc
    calc Polynomial.addProducts (coefficientsBy (joinNested depth)) [doubleValue 0] (c :: cs)
          (List.replicate (c :: cs).length (intValue 0))
        = (do
            let t ← joinNested depth .mul c (doubleValue 0) >>= joinNested depth .add (intValue 0)
            let ts ← Polynomial.addProducts (coefficientsBy (joinNested depth)) [doubleValue 0] cs
              (List.replicate cs.length (intValue 0))
            return t :: ts) := by
          rw [List.length_cons, List.replicate_succ, Polynomial.addProducts,
            Polynomial.addMultiples, Polynomial.addMultiples_nil]
          simp only [bind_assoc]
          rfl
      _ = _ := by
        rw [first, ih, List.mapM_cons]
        cases besideZero c with
        | error => rfl
        | ok => cases cs.mapM besideZero <;> rfl

/-- Zeros alone, when they come from numbers that become doubles. -/
theorem mul_of_products {inner : Op → Value → Value → Outcome Value} {p q : Polynomial Value}
    {n : ℕ} (size : p.coeffs.length + q.coeffs.length - 1 = n + 1)
    (products : Polynomial.addProducts (coefficientsBy inner) q.coeffs p.coeffs
      (List.replicate (n + 1) ((coefficientsBy inner).ofInt 0)) = do
        let _ ← cs.mapM besideZero
        return List.replicate (n + 1) (doubleValue 0)) :
    (do return polynomial (← p.mul (coefficientsBy inner) q).coeffs : Outcome Value) = do
      let _ ← cs.mapM besideZero
      return polynomial [doubleValue 0] := by
  have trimmed : Polynomial.trim (coefficientsBy inner).isZero
      (List.replicate (n + 1) (doubleValue 0)) = [doubleValue 0] :=
    Polynomial.trim_replicate isZero_doubleValue_zero n
  have single : (Polynomial.ofList (coefficientsBy inner)
      (List.replicate (n + 1) (doubleValue 0))).coeffs = [doubleValue 0] := by
    rw [Polynomial.ofList, trimmed]
  rw [Polynomial.mul, size, products]
  cases cs.mapM besideZero with
  | error => rfl
  | ok => exact congrArg (Except.ok <| polynomial ·) single

/-- The polynomial of no coefficients makes doubles of all coefficients in a product. -/
theorem join_empty_product {product : Outcome Value}
    (hp : Polynomial.Represents fraction? cs P)
    (hproduct : product ∈ productsWith (polynomial [doubleValue 0]) (polynomial cs)) :
    product = do
      let _ ← cs.mapM besideZero
      return polynomial [doubleValue 0] := by
  obtain ⟨n, length⟩ : ∃ n, cs.length = n + 1 := ⟨_, hp.length_eq⟩
  simp only [productsWith, List.mem_cons, List.not_mem_nil, or_false] at hproduct
  obtain rfl | rfl := hproduct
  · obtain ⟨depth, deeper⟩ := join_polynomial_left .mul [doubleValue 0] (polynomial cs)
    have multiples := addMultiples_zero depth hp.denotes
    have products : Polynomial.addProducts (coefficientsBy (joinNested depth)) cs
        [doubleValue 0] (List.replicate cs.length (intValue 0)) = do
          let _ ← cs.mapM besideZero
          return List.replicate cs.length (doubleValue 0) := by
      rw [Polynomial.addProducts, multiples, length]
      cases cs.mapM besideZero <;> rfl
    rw [length] at products
    rw [deeper]
    exact mul_of_products (p := ⟨[doubleValue 0]⟩) (q := ⟨cs⟩) (by simp [length]) products
  · obtain ⟨depth, deeper⟩ := join_polynomial_left .mul cs (polynomial [doubleValue 0])
    have products := addProducts_zero depth hp.denotes
    rw [length] at products
    rw [deeper]
    exact mul_of_products (p := ⟨cs⟩) (q := ⟨[doubleValue 0]⟩) (by simp [length]) products

/-! ### Where it is a zero -/

/-- A double is equal to the number it was made of only if nothing was lost. -/
theorem same_beside (hc : c.fraction? = some y) (beside : besideZero c = .ok x) :
    same (doubleValue x) c = true ↔ finiteValue? x = c.fraction? := by
  obtain ⟨n, -, counts, rfl⟩ | ⟨-, rfl⟩ := exact_cases hc
  · rw [hc, same_numbers rfl counts, Number.eq, decide_eq_true_eq]
  · cases beside

/-- A sum with the double in front equals the polynomial exactly when its constant term is kept. -/
theorem agree_sum (hc : c.fraction? = some y) (tails : allSame rs rest = true) :
    Agree (do return polynomial (doubleValue (← besideZero c) :: rs))
      (.ok (polynomial (c :: rest))) ↔ c.Kept := by
  cases beside : besideZero c with
  | error fault =>
    constructor
    · rintro ⟨a, b, impossible, -⟩
      cases impossible
    · rintro ⟨x, impossible, -⟩
      rw [beside] at impossible
      cases impossible
  | ok x =>
    have equal : same (polynomial (doubleValue x :: rs)) (polynomial (c :: rest)) =
        same (doubleValue x) c := by
      rw [same, allSame, tails, Bool.and_true]
      rfl
    constructor
    · rintro ⟨_, _, ⟨rfl⟩, ⟨rfl⟩, agree⟩
      exact ⟨x, beside, (same_beside hc beside).1 (equal ▸ agree)⟩
    · rintro ⟨x', beside', kept⟩
      rw [beside] at beside'
      cases beside'
      exact ⟨_, _, rfl, rfl, equal.trans ((same_beside hc beside).2 kept)⟩

/-- A list of coefficients has doubles when each of them has. -/
theorem mapM_besideZero :
    (∃ xs, cs.mapM besideZero = .ok xs) ↔ ∀ d ∈ cs, ∃ x, besideZero d = .ok x := by
  induction cs with
  | nil => simp [pure, Except.pure]
  | cons c cs ih =>
    rw [List.forall_mem_cons, ← ih, List.mapM_cons]
    cases besideZero c with
    | error => simp [bind, Except.bind]
    | ok x => cases cs.mapM besideZero <;> simp [bind, Except.bind, pure, Except.pure]

/-- The product with the empty polynomial is zero unless a coefficient has no double. -/
theorem agree_product :
    Agree (do let _ ← cs.mapM besideZero; return polynomial [doubleValue 0])
      (.ok (polynomial [intValue 0])) ↔ ∀ d ∈ cs, ∃ x, besideZero d = .ok x := by
  rw [← mapM_besideZero]
  have zero : same (doubleValue 0) (intValue 0) = true := by
    rw [same_numbers rfl rfl, double_zero_eq]
  have equal : same (polynomial [doubleValue 0]) (polynomial [intValue 0]) = true := by
    rw [same, allSame, allSame, zero, Bool.or_true, Bool.true_and]
  cases cs.mapM besideZero with
  | error fault =>
    constructor
    · rintro ⟨a, b, impossible, -⟩
      cases impossible
    · rintro ⟨xs, impossible⟩
      cases impossible
  | ok xs => exact ⟨fun _ => ⟨xs, rfl⟩, fun _ => ⟨_, _, rfl, rfl, equal⟩⟩

/-- Sums of the polynomial of no coefficients with a polynomial are that polynomial if and only if
its first coefficient is kept beside the double zero, and products are zero if and only if all its
coefficients become doubles there. So it is the zero for integers up to `2 ^ 53` in size. -/
theorem empty_zero {items : List Value} (nonempty : items ≠ [])
    (exact : ∀ a ∈ items, a.fraction?.isSome) :
    ∃ z p zero c rest, polynomialOf [] = .ok z ∧ polynomialOf items = .ok p ∧
      polynomialOf [intValue 0] = .ok zero ∧ p = polynomial (c :: rest) ∧ c :: rest <+: items ∧
      (∀ sum ∈ sumsWith z p,
        (Agree sum (.ok p) ↔ c.Kept) ∧
        ∀ fault, besideZero c = .error fault → sum = .error fault) ∧
      (∀ product ∈ productsWith z p,
        (Agree product (.ok zero) ↔ ∀ d ∈ c :: rest, ∃ x, besideZero d = .ok x) ∧
        ∀ fault, (c :: rest).mapM besideZero = .error fault → product = .error fault) ∧
      ((∀ a ∈ items, ∃ n, a.int? = some n ∧ n.natAbs ≤ 2 ^ 53) →
        (∀ sum ∈ sumsWith z p, Agree sum (.ok p)) ∧
        ∀ product ∈ productsWith z p, Agree product (.ok zero)) := by
  obtain ⟨ys, fractions⟩ := exists_fractions exact
  obtain ⟨P, hP, -⟩ := Polynomial.exists_denotes fractions
  have hp := hP.trim exact_coefficients (List.length_pos_iff.2 nonempty)
  have front := Polynomial.trim_prefix coefficients.isZero items
  -- Only the coefficients without the zeros at the top enter the sums and the products.
  cases trimmed : Polynomial.trim coefficients.isZero items with
  | nil => exact absurd trimmed hp.ne_nil
  | cons c rest =>
    rw [trimmed] at hp front
    have made : polynomialOf items = .ok (polynomial (c :: rest)) := by
      have coeffs : (Polynomial.ofList coefficients items).coeffs = c :: rest := by
        rw [Polynomial.ofList, trimmed]
      exact congrArg (Except.ok <| polynomial ·) coeffs
    obtain ⟨y, -, hc, -, -⟩ := hp.denotes.uncons
    have sums : ∀ sum ∈ sumsWith (polynomial [doubleValue 0]) (polynomial (c :: rest)),
        (Agree sum (.ok (polynomial (c :: rest))) ↔ c.Kept) ∧
        ∀ fault, besideZero c = .error fault → sum = .error fault := by
      intro sum hsum
      obtain ⟨rs, tails, rfl⟩ := join_empty_sum hp hsum
      refine ⟨agree_sum hc tails, fun fault beside => ?_⟩
      rw [beside]
      rfl
    have products : ∀ product ∈ productsWith (polynomial [doubleValue 0]) (polynomial (c :: rest)),
        (Agree product (.ok (polynomial [intValue 0])) ↔
          ∀ d ∈ c :: rest, ∃ x, besideZero d = .ok x) ∧
        ∀ fault, (c :: rest).mapM besideZero = .error fault → product = .error fault := by
      intro product hproduct
      rw [join_empty_product hp hproduct]
      refine ⟨agree_product, fun fault beside => ?_⟩
      rw [beside]
      rfl
    refine ⟨_, _, _, c, rest, rfl, made, rfl, rfl, front, sums, products, fun small => ?_⟩
    -- Integers of this size are doubles, so nothing is lost beside the zero.
    have kept : ∀ d ∈ c :: rest, d.Kept := by
      intro d hd
      obtain ⟨n, integer, bound⟩ := small d (front.subset hd)
      exact kept_of_natAbs_le integer bound
    refine ⟨fun sum hsum => (sums sum hsum).1.2 (kept c List.mem_cons_self), fun product hproduct =>
      (products product hproduct).1.2 fun d hd => ?_⟩
    obtain ⟨x, beside, -⟩ := kept d hd
    exact ⟨x, beside⟩

/-- The sums and products with `3 - x`. -/
theorem empty_zero_line :
    ∃ z p zero, polynomialOf [] = .ok z ∧ polynomialOf [intValue 3, intValue (-1)] = .ok p ∧
      polynomialOf [intValue 0] = .ok zero ∧
      (∀ sum ∈ sumsWith z p, Agree sum (.ok p)) ∧
      ∀ product ∈ productsWith z p, Agree product (.ok zero) := by
  have integers : ∀ a ∈ [intValue 3, intValue (-1)], ∃ n : ℤ, a.number? = some (.int n) ∧
      n.natAbs ≤ 2 ^ 53 := by
    intro a ha
    obtain rfl | rfl : a = intValue 3 ∨ a = intValue (-1) := by simpa using ha
    · exact ⟨3, rfl, by decide⟩
    · exact ⟨-1, rfl, by decide⟩
  have exact : ∀ a ∈ [intValue 3, intValue (-1)], a.fraction?.isSome := by
    intro a ha
    obtain ⟨n, counts, -⟩ := integers a ha
    rw [fraction?, counts]
    rfl
  obtain ⟨z, p, zero, c, rest, hz, hp, hzero, -, -, -, -, laws⟩ := empty_zero (by simp) exact
  refine ⟨z, p, zero, hz, hp, hzero, laws fun a ha => ?_⟩
  obtain ⟨n, counts, small⟩ := integers a ha
  exact ⟨n, by rw [int?, counts], small⟩

/-- A half as a polynomial has no sum with the polynomial of no coefficients. -/
theorem empty_add_half :
    ∃ z p, polynomialOf [] = .ok z ∧ polynomialOf [fractionValue (1 / 2)] = .ok p ∧
      join .add z p = .error (Number.noFraction 0) ∧ ¬ Agree (join .add z p) (.ok p) := by
  have refused : join .add (polynomial [doubleValue 0]) (polynomial [fractionValue (1 / 2)]) =
      .error (Number.noFraction 0) := by
    have half : (fractionValue (1 / 2)).fraction? = some (1 / 2) := rfl
    obtain ⟨rs, -, sum⟩ := join_empty_sum (Polynomial.represents_singleton half) List.mem_cons_self
    exact sum
  refine ⟨_, _, rfl, rfl, refused, ?_⟩
  rintro ⟨a, b, impossible, -⟩
  cases refused.symm.trans impossible

end Fluxion.Calculator.Value
