import Fluxion.Expr.Print
import Fluxion.Proofs.Differentiation
import Fluxion.Proofs.Reading

/-!
# What is printed can be read

The text of a tree is a phrase of the grammar, and its tree is the printed one, made again by the
constructors (`reads_render`). The brackets are where the grammar needs them: a tree is a phrase of
every level that its precedence is above.

The limits of writing and of reading are the same one: a constant is writable if each of its two
integers has at most `Decimal.maxDigits` digits, and these integers are the literals of its text. A
finished tree is printed if all its constants are writable, and refused for its digits otherwise
(`print_eq_ok`, `print_eq_error`).
-/

namespace Fluxion
set_option autoImplicit false
open Fluxion.Text

section Numerals

open Decimal

/-- The character of a digit is a plain digit with its value. -/
theorem digitChar_spec {d : Nat} (h : d < 10) :
    (digitChar d).isDigit = true ∧ (digitChar d).toNat - 48 = d := by
  have all : ∀ d < 10, (digitChar d).isDigit = true ∧ (digitChar d).toNat - 48 = d := by decide
  exact all d h

theorem isNumeral_digits (n : Nat) : IsNumeral (digits n) := by
  refine ⟨digits_ne_nil n, ?_⟩
  induction n using Nat.strongRecOn with
  | _ n ih =>
    intro c hc
    unfold digits at hc
    split at hc
    · rename_i small
      obtain rfl := List.mem_singleton.1 hc
      exact (digitChar_spec small).1
    · rcases List.mem_append.1 hc with hc | hc
      · exact ih (n / 10) (by omega) c hc
      · obtain rfl := List.mem_singleton.1 hc
        exact (digitChar_spec (Nat.mod_lt n (by decide))).1

/-- The digits of a number write it. -/
theorem numeral_digits (n : Nat) : numeral (digits n) = n := by
  induction n using Nat.strongRecOn with
  | _ n ih =>
    unfold digits
    split
    · rename_i small
      simpa [numeral, ofValues] using (digitChar_spec small).2
    · have front := ih (n / 10) (by omega)
      have last := (digitChar_spec (Nat.mod_lt n (show 0 < 10 by decide))).2
      simp only [numeral, ofValues] at front
      simp only [numeral, ofValues, List.map_append, List.foldl_append, List.map_singleton,
        List.foldl_cons, List.foldl_nil, front, last]
      omega

end Numerals

namespace Decimal

/-- A number has at most `k` digits if it is less than the `k`-th power of ten. -/
theorem length_le_iff {n k : Nat} (positive : k ≠ 0) : length n ≤ k ↔ n < 10 ^ k := by
  induction k generalizing n with
  | zero => contradiction
  | succ k ih =>
    unfold length
    split
    · rename_i small
      have le : 10 ^ 1 ≤ 10 ^ (k + 1) := Nat.pow_le_pow_right (by decide) (by omega)
      exact iff_of_true (by omega) (by omega)
    · rename_i large
      cases k with
      | zero =>
        have more : length (n / 10) ≠ 0 := by
          unfold length
          split <;> simp
        exact iff_of_false (by omega) large
      | succ k =>
        rw [Nat.add_le_add_iff_right, ih (Nat.succ_ne_zero k), Nat.div_lt_iff_lt_mul (by decide),
          ← pow_succ]

/-- An integer can be written when it is below the first power of ten with too many digits. -/
theorem isWritable_iff {n : Int} : isWritable n = true ↔ n.natAbs < 10 ^ maxDigits := by
  rw [isWritable, decide_eq_true_iff, length_le_iff (by decide)]

/-- What can be written can be read. -/
theorem length_digits_le {n : Int} (h : isWritable n = true) :
    (digits n.natAbs).length ≤ maxDigits := by
  rw [length_digits]
  exact of_decide_eq_true h

end Decimal

namespace Literal

variable {q : Rat}

theorem isWritable_num (h : isWritable q = true) : Decimal.isWritable q.num = true :=
  (Bool.and_eq_true_iff.1 h).1

theorem isWritable_den (h : isWritable q = true) : Decimal.isWritable q.den = true :=
  (Bool.and_eq_true_iff.1 h).2

/-- The sign is no digit. -/
theorem isWritable_neg : isWritable (-q) = isWritable q := by
  simp only [isWritable, Decimal.isWritable, Rat.num_neg_eq_neg_num, Int.natAbs_neg,
    Rat.den_neg_eq_den]

/-- Fractions of small numbers can be written. -/
theorem isWritable_of_lt (num : q.num.natAbs < 10) (den : q.den < 10) : isWritable q = true := by
  have le : 10 ^ 1 ≤ 10 ^ Decimal.maxDigits := Nat.pow_le_pow_right (by decide) (by decide)
  refine Bool.and_eq_true_iff.2 ⟨Decimal.isWritable_iff.2 ?_, Decimal.isWritable_iff.2 ?_⟩
  · exact lt_of_lt_of_le num le
  · exact lt_of_lt_of_le den le

theorem isWritable_two : isWritable 2 = true := isWritable_of_lt (by decide) (by decide)

/-- A power of ten has one digit more than its exponent. -/
theorem isWritable_tens {k : Nat} (long : Decimal.maxDigits ≤ k) :
    isWritable ((10 : Rat) ^ k) = false := by
  have natural : (10 : Rat) ^ k = ((10 ^ k : Nat) : Rat) := by rw [Nat.cast_pow, Nat.cast_ofNat]
  have beyond : ¬10 ^ k < 10 ^ Decimal.maxDigits :=
    Nat.not_lt.2 (Nat.pow_le_pow_right (by decide) long)
  rw [← Bool.not_eq_true]
  intro writable
  have num := Decimal.isWritable_iff.1 (isWritable_num writable)
  rw [natural, Rat.num_natCast, Int.natAbs_natCast] at num
  exact beyond num

end Literal

/-- Every constant of the tree has few enough digits to be written. -/
def Expr.Writable : Expr → Prop
  | const q => Literal.isWritable q = true
  | binary _ l r | comp l r => l.Writable ∧ r.Writable
  | special _ a => a.Writable
  | var _ | e | pi => True

variable {ctx : Context} {dim : Nat} {level : Level} {s : List Char} {f : Expr}

/-- The precedence above which a tree is a phrase of the level. -/
def Level.floor : Level → Int
  | .sum => 0
  | .product => 10
  | .power => 20
  | .primary => 30

/-- A phrase is a phrase of every looser level. -/
theorem Reads.loosen {other : Level} (h : Reads ctx dim level s f)
    (le : other.floor ≤ level.floor) : Reads ctx dim other s f := by
  have power (h : Reads ctx dim .primary s f) : Reads ctx dim .power s f := .single .pow h
  have product (h : Reads ctx dim .power s f) : Reads ctx dim .product s f := .single .mul h
  have sum (h : Reads ctx dim .product s f) : Reads ctx dim .sum s f := .single .add h
  cases level <;> cases other <;> first
    | exact absurd le (by decide)
    | exact h
    | exact sum h
    | exact product h
    | exact power h
    | exact sum (product h)
    | exact product (power h)
    | exact sum (product (power h))

/-- The digits of a natural number are a phrase for it. -/
theorem reads_natural {n : Nat} (short : (Decimal.digits n).length ≤ Decimal.maxDigits) :
    Reads ctx dim .primary (Decimal.digits n) (.const n) := by
  have token : Reads ctx dim .primary (Decimal.digits n) (.const (numeral (Decimal.digits n))) :=
    .integer (isNumeral_digits n) short
  rwa [numeral_digits] at token

theorem div_const {a b : Rat} (hb : b ≠ 0) :
    Expr.div (.const a) (.const b) = .const (a / b) := by
  have nonzero : Expr.const b ≠ .const 0 := fun h => hb (Expr.const.inj h)
  unfold Expr.div
  rw [if_neg nonzero]
  split
  · rename_i same
    rw [Expr.const.inj same, div_self hb]
  · split
    · rename_i one
      rw [Expr.const.inj one, div_one]
    · split
      · rename_i zero
        rw [Expr.const.inj zero, zero_div]
      · rfl

/-- A fraction that is not negative is the quotient of what is printed for it. -/
theorem natAbs_num_div_den {q : Rat} (nonneg : 0 ≤ q) : (q.num.natAbs : Rat) / q.den = q := by
  have num : (q.num.natAbs : Rat) = q.num := by
    rw [← Int.cast_natCast, Int.natAbs_of_nonneg (Rat.num_nonneg.2 nonneg)]
  rw [num, Rat.num_div_den]

theorem natAbs_num_of_den_eq_one {q : Rat} (nonneg : 0 ≤ q) (integer : q.den = 1) :
    (q.num.natAbs : Rat) = q := by
  have whole := natAbs_num_div_den nonneg
  rwa [integer, Nat.cast_one, div_one] at whole

section Constants

variable {q : Rat}

/-- The numerator without its sign is one token. -/
theorem reads_numerator (writable : Literal.isWritable q = true) :
    Reads ctx dim .primary (Decimal.digits q.num.natAbs) (.const q.num.natAbs) :=
  reads_natural (Decimal.length_digits_le (Literal.isWritable_num writable))

/-- A nonnegative integer is its numerator. -/
theorem reads_integer (writable : Literal.isWritable q = true) (nonneg : 0 ≤ q)
    (integer : q.den = 1) : Reads ctx dim .primary (Decimal.digits q.num.natAbs) (.const q) := by
  have token : Reads ctx dim .primary (Decimal.digits q.num.natAbs) (.const q.num.natAbs) :=
    reads_numerator writable
  rwa [natAbs_num_of_den_eq_one nonneg integer] at token

/-- A nonnegative fraction is a quotient. -/
theorem reads_fraction (writable : Literal.isWritable q = true) (nonneg : 0 ≤ q) :
    Reads ctx dim .product (Decimal.digits q.num.natAbs ++ '/' :: Decimal.digits q.den)
      (.const q) := by
  have numerator : Reads ctx dim .product (Decimal.digits q.num.natAbs) (.const q.num.natAbs) :=
    (reads_numerator writable).loosen (by decide)
  have denominator : Reads ctx dim .power (Decimal.digits q.den) (.const q.den) :=
    (reads_natural (Decimal.length_digits_le (Literal.isWritable_den writable))).loosen (by decide)
  have joined := Reads.join .div numerator denominator
  have folded : Op.div.apply (.const q.num.natAbs) (.const q.den) = .const q := by
    rw [Op.apply, div_const (Nat.cast_ne_zero.2 q.den_ne_zero), natAbs_num_div_den nonneg]
  rwa [folded] at joined

/-- A nonnegative constant without its sign. -/
theorem reads_magnitude (writable : Literal.isWritable q = true) (nonneg : 0 ≤ q) :
    Reads ctx dim .product (Decimal.digits q.num.natAbs ++
      if q.den = 1 then [] else '/' :: Decimal.digits q.den) (.const q) := by
  split
  · rename_i integer
    rw [List.append_nil]
    exact (reads_integer writable nonneg integer).loosen (by decide)
  · exact reads_fraction writable nonneg

/-- A constant is printed as a phrase for itself, on the level of its sign and of its bar. -/
theorem reads_const (writable : Literal.isWritable q = true)
    (h : level.floor < (Expr.const q).precedence) :
    Reads ctx dim level (Literal.text q) (.const q) := by
  rw [Expr.precedence] at h
  unfold Literal.text Decimal.signedDigits
  split at h
  · rename_i negative
    have opposite : Expr.neg (.const (-q)) = .const q := by
      simp [Expr.neg, Expr.scale]
    have magnitude : Reads ctx dim .product _ (.const (-q)) :=
      reads_magnitude (Literal.isWritable_neg.trans writable) (neg_nonneg.2 negative.le)
    have negated := magnitude.negated
    rw [opposite, Rat.num_neg_eq_neg_num, Int.natAbs_neg, Rat.den_neg_eq_den] at negated
    rw [if_pos (Rat.num_neg.2 negative), List.cons_append]
    exact negated.loosen (by revert h; cases level <;> decide)
  · rename_i nonneg
    have nonneg : 0 ≤ q := not_lt.1 nonneg
    rw [if_neg (not_lt.2 (Rat.num_nonneg.2 nonneg))]
    split at h
    · rename_i integer
      rw [if_pos integer, List.append_nil]
      exact (reads_integer writable nonneg integer).loosen (by cases level <;> decide)
    · exact (reads_magnitude writable nonneg).loosen (by revert h; cases level <;> decide)

end Constants

/-- An operand is bracketed unless it is a phrase of the level that the operation asks for. -/
theorem reads_bracket {p : Int} {text : List Char}
    (h : ∀ level : Level, level.floor < f.precedence → Reads ctx dim level text f.rebuild)
    (positive : 0 < f.precedence) (le : level.floor ≤ p) :
    Reads ctx dim level (Expr.bracket p f text) f.rebuild := by
  unfold Expr.bracket
  split
  · exact h level (lt_of_le_of_lt le (by assumption))
  · have group := Reads.group (o := '(') (c := ')') rfl rfl (h .sum positive)
    exact group.loosen (by cases level <;> decide)

/-- Only a composition that was not carried out has no precedence. -/
theorem precedence_pos (h : f.Within dim) : 0 < f.precedence := by
  cases f with
  | var | e | pi | special => exact (by decide : (0 : Int) < 1000)
  | const q =>
    rw [Expr.precedence]
    split
    · decide
    · split <;> decide
  | binary op =>
    rw [Expr.precedence]
    cases op <;> decide
  | comp => exact h.elim

/-- The text of a tree is a phrase of every level that its precedence is above. -/
theorem reads_render_level (small : dim ≤ 3) (hf : f.Within dim) (writable : f.Writable)
    (h : level.floor < f.precedence) : Reads ctx dim level f.render f.rebuild := by
  induction f generalizing level with
  | var i =>
    obtain ⟨lower, upper⟩ := hf
    obtain ⟨a, rfl, found⟩ := Axis.exists_of_lt lower (by omega)
    rw [Expr.render, found]
    have axis : Reads ctx dim .primary [a.letter] (.var a.index) := .axis a (by omega)
    exact axis.loosen (by cases level <;> decide)
  | e =>
    have token : Reads ctx dim .primary ['e'] .e := .e
    exact token.loosen (by cases level <;> decide)
  | pi =>
    have token : Reads ctx dim .primary ['p', 'i'] .pi := .pi
    exact token.loosen (by cases level <;> decide)
  | const q => exact reads_const writable h
  | binary op l r ihl ihr =>
    -- On the left an operand of the same level needs no bracket, on the right it does.
    have left : Reads ctx dim op.level (Expr.bracket (op.precedence - 1) l l.render) l.rebuild :=
      reads_bracket (fun _ => ihl hf.1 writable.1) (precedence_pos hf.1) (by cases op <;> decide)
    have right : Reads ctx dim op.operandLevel (Expr.bracket op.precedence r r.render) r.rebuild :=
      reads_bracket (fun _ => ihr hf.2 writable.2) (precedence_pos hf.2) (by cases op <;> decide)
    have tight : level.floor < op.precedence := h
    exact (Reads.join op left right).loosen (by revert tight; cases op <;> cases level <;> decide)
  | comp => exact hf.elim
  | special k a ih =>
    have argument : Reads ctx dim .sum (Expr.bracket 0 a a.render) a.rebuild :=
      reads_bracket (fun _ => ih hf writable) (precedence_pos hf) le_rfl
    have call := Reads.call k (o := '(') (c := ')') rfl rfl argument
    rw [Expr.render, List.append_assoc, List.cons_append]
    exact call.loosen (by cases level <;> decide)

/-- The text of a tree is a phrase whose tree is made of the tree by the constructors. -/
theorem reads_render (small : dim ≤ 3) (hf : f.Within dim) (writable : f.Writable) :
    Reads ctx dim .sum f.render f.rebuild :=
  reads_render_level small hf writable (precedence_pos hf)

/-- All that keeps a finished tree from being printed is a constant with too many digits. -/
theorem fault?_eq_none_iff (hf : f.Finished) : f.fault? = none ↔ f.Writable := by
  induction f with
  | var i =>
    obtain ⟨a, found⟩ := hf
    simp [Expr.fault?, found, Expr.Writable]
  | e | pi => simp [Expr.fault?, Expr.Writable]
  | const q => simp [Expr.fault?, Expr.Writable]
  | binary op l r ihl ihr =>
    simp only [Expr.fault?, Expr.Writable, Option.or_eq_none_iff, ihl hf.1, ihr hf.2]
  | comp => exact hf.elim
  | special k a ih => exact ih hf

/-- A finished tree fails to print for the length of a constant only. -/
theorem eq_tooManyDigits_of_fault? {fault : TreeFault} (hf : f.Finished)
    (found : f.fault? = some fault) : fault = .tooManyDigits := by
  induction f with
  | var i =>
    obtain ⟨a, axis⟩ := hf
    simp [Expr.fault?, axis] at found
  | e | pi => contradiction
  | const q =>
    rw [Expr.fault?] at found
    split at found
    · contradiction
    · exact (Option.some.inj found).symm
  | binary op l r ihl ihr =>
    obtain left | ⟨-, right⟩ := Option.or_eq_some_iff.1 found
    · exact ihl hf.1 left
    · exact ihr hf.2 right
  | comp => exact hf.elim
  | special k a ih => exact ih hf found

/-- A finished tree can be printed if its constants can be written. -/
theorem print_eq_ok (hf : f.Finished) (writable : f.Writable) : f.print = .ok f.render := by
  rw [Expr.print, (fault?_eq_none_iff hf).2 writable]

/-- Otherwise it is refused for its digits. -/
theorem print_eq_error (hf : f.Finished) (unwritable : ¬f.Writable) :
    f.print = .error .tooManyDigits := by
  rw [Expr.print]
  cases found : f.fault? with
  | none => exact absurd ((fault?_eq_none_iff hf).1 found) unwritable
  | some fault => rw [eq_tooManyDigits_of_fault? hf found]

end Fluxion
