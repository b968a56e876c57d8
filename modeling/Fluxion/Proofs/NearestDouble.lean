import Mathlib
import Fluxion.Number

/-!
# Doubles nearest to integers

The double nearest to an integer is finite, and no zero with a sign (`isPlain_ofInt?`). Such doubles
do not change when a zero is added or taken away (`zero_add_double`, `add_zero_double`,
`sub_zero_double`). A product of one with zero may have a sign, which goes when it is added to zero
(`zero_add_zero_mul`, `zero_add_mul_zero`). Integers up to `2 ^ 53` in size are doubles exactly
(`finiteValue?_ofInt?`).

Arithmetic on doubles unpacks them into sign, mantissa and exponent. `unpack_of_decode` says what it
finds there for a double that has been decoded.
-/

namespace Fluxion.Decimal
set_option autoImplicit false

open Float.Model (UnpackedFloat Format)
open Float.Model.UnpackedFloat (Sign)

variable {x : Float} {negative : Bool} {m bits : ℕ} {q : ℤ}

/-! ### Fields -/

/-- The mantissa is what stands below the leading bit. -/
theorem toNat_unpackMantissa (b : BitVec Format.binary64.numBits) :
    (UnpackedFloat.unpackMantissa b).toNat = b.toNat % leadingBit := by
  rw [UnpackedFloat.unpackMantissa_def, BitVec.extractLsb'_toNat]
  rfl

/-- The exponent is the eleven bits from the leading bit on. -/
theorem toNat_unpackExponent (b : BitVec Format.binary64.numBits) :
    (UnpackedFloat.unpackExponent b).toNat = b.toNat / leadingBit % 2048 := by
  rw [UnpackedFloat.unpackExponent_def, BitVec.extractLsb'_toNat, Nat.shiftRight_eq_div_pow]
  rfl

/-- The sign is the bit above the exponent. -/
theorem toNat_unpackSign (b : BitVec Format.binary64.numBits) :
    (UnpackedFloat.unpackSign b).toNat = b.toNat / signBit % 2 := by
  rw [UnpackedFloat.unpackSign_def, BitVec.extractLsb'_toNat, Nat.shiftRight_eq_div_pow]
  rfl

/-- The sign of a double. -/
def signOf (negative : Bool) : Sign := if negative then .negative else .positive

theorem ofBitVec_unpackSign (b : BitVec Format.binary64.numBits) :
    Sign.ofBitVec (UnpackedFloat.unpackSign b) = signOf (decide (b.toNat / signBit % 2 = 1)) := by
  have sign := toNat_unpackSign b
  obtain zero | one := Nat.mod_two_eq_zero_or_one (b.toNat / signBit)
  · rw [zero] at sign ⊢
    rw [BitVec.eq_of_toNat_eq (y := 0#1) sign]
    rfl
  · rw [one] at sign ⊢
    rw [BitVec.eq_of_toNat_eq (y := 1#1) sign]
    rfl

/-- Bits of a finite double, as arithmetic takes them: only a mantissa of zero makes a zero. -/
theorem unpack_of_decodeBits {b : BitVec Format.binary64.numBits}
    (h : decodeBits b.toNat = .finite negative m q) :
    m = 0 ∧ UnpackedFloat.unpack Format.binary64 b = .zero (signOf negative) ∨
      ∃ s n e pos, UnpackedFloat.unpack Format.binary64 b = .finite s n e pos := by
  have sign := ofBitVec_unpackSign b
  unfold decodeBits at h
  rw [← toNat_unpackExponent b, ← toNat_unpackMantissa b] at h
  -- an exponent of ones is decoded as infinite or undefined
  have finite : UnpackedFloat.unpackExponent b ≠ -1#_ := by
    intro all
    have : (UnpackedFloat.unpackExponent b).toNat = 2047 := by rw [all]; rfl
    simp only [this, if_true] at h
    split at h <;> cases h
  fun_cases UnpackedFloat.unpack Format.binary64 b with
  | case1 _ _ _ _ all => exact absurd all finite
  | case2 _ _ all => exact absurd all finite
  | case3 _ _ _ _ _ exponent mantissa =>
    change UnpackedFloat.unpackExponent b = _ at exponent
    change UnpackedFloat.unpackMantissa b = _ at mantissa
    rw [exponent, mantissa] at h
    cases h
    exact .inl ⟨rfl, congrArg _ sign⟩
  | case4 => exact .inr ⟨_, _, _, _, rfl⟩
  | case5 => exact .inr ⟨_, _, _, _, rfl⟩

/-- A double that decodes to a finite number unpacks to a zero or to a finite one. -/
theorem unpack_of_decode (h : decode x = .finite negative m q) :
    m = 0 ∧ x.toModel.unpack = .zero (signOf negative) ∨
      ∃ s n e pos, x.toModel.unpack = .finite s n e pos :=
  unpack_of_decodeBits h

/-- A double with a mantissa is not equal to zero. -/
theorem beq_zero_eq_false (h : decode x = .finite negative m q) (nonzero : m ≠ 0) :
    (x == 0) = false := by
  obtain ⟨zero, -⟩ | ⟨s, n, e, pos, unpacked⟩ := unpack_of_decode h
  · exact absurd zero nonzero
  · show UnpackedFloat.beq x.toModel.unpack (.zero .positive) = false
    rw [unpacked]
    cases s <;> rfl

/-! ### Arithmetic with zero -/

/-- A finite double that is no zero with a sign. -/
def IsPlain (x : Float) : Prop :=
  ∃ negative m q, decode x = .finite negative m q ∧ (m = 0 → negative = false)

/-- A plain double is the positive zero or not zero at all. -/
theorem IsPlain.unpack (h : IsPlain x) :
    x.toModel.unpack = .zero .positive ∨ ∃ s n e pos, x.toModel.unpack = .finite s n e pos := by
  obtain ⟨negative, m, q, decoded, unsigned⟩ := h
  obtain ⟨zero, unpacked⟩ | finite := unpack_of_decode decoded
  · rw [unsigned zero] at unpacked
    exact .inl unpacked
  · exact .inr finite

/-- A double is told by its unpacked form. -/
theorem ofModel_pack {u : UnpackedFloat} (h : x.toModel.unpack = u) :
    Float.ofModel (.pack u) = x :=
  h ▸ Float.ofBits_toBits x

/-- Zero is neutral on the left. The negative zero is the exception, and it is not plain. -/
theorem zero_add_double (h : IsPlain x) : 0 + x = x := by
  have sum : (0 + x).toModel =
      .pack (UnpackedFloat.add Format.binary64 (.zero .positive) x.toModel.unpack) := rfl
  obtain unpacked | ⟨s, n, e, pos, unpacked⟩ := h.unpack <;>
  · rw [unpacked] at sum
    exact (congrArg Float.ofModel sum).trans (ofModel_pack unpacked)

theorem add_zero_double (h : IsPlain x) : x + 0 = x := by
  have sum : (x + 0).toModel =
      .pack (UnpackedFloat.add Format.binary64 x.toModel.unpack (.zero .positive)) := rfl
  obtain unpacked | ⟨s, n, e, pos, unpacked⟩ := h.unpack <;>
  · rw [unpacked] at sum
    exact (congrArg Float.ofModel sum).trans (ofModel_pack unpacked)

theorem sub_zero_double (h : IsPlain x) : x - 0 = x := by
  have difference : (x - 0).toModel =
      .pack (UnpackedFloat.sub Format.binary64 x.toModel.unpack (.zero .positive)) := rfl
  obtain unpacked | ⟨s, n, e, pos, unpacked⟩ := h.unpack <;>
  · rw [unpacked] at difference
    exact (congrArg Float.ofModel difference).trans (ofModel_pack unpacked)

theorem zero_add_signed_zero (s : Sign) : (0 : Float) + .ofModel (.pack (.zero s)) = 0 := by
  cases s <;> rfl

/-- The product with zero may be the negative zero, which the sum with zero removes. -/
theorem zero_add_zero_mul (h : IsPlain x) : 0 + 0 * x = 0 := by
  have product : (0 * x).toModel =
      .pack (UnpackedFloat.mul Format.binary64 (.zero .positive) x.toModel.unpack) := rfl
  obtain unpacked | ⟨s, n, e, pos, unpacked⟩ := h.unpack <;>
  · rw [unpacked] at product
    exact (congrArg (0 + Float.ofModel ·) product).trans (zero_add_signed_zero _)

theorem zero_add_mul_zero (h : IsPlain x) : 0 + x * 0 = 0 := by
  have product : (x * 0).toModel =
      .pack (UnpackedFloat.mul Format.binary64 x.toModel.unpack (.zero .positive)) := rfl
  obtain unpacked | ⟨s, n, e, pos, unpacked⟩ := h.unpack <;>
  · rw [unpacked] at product
    exact (congrArg (0 + Float.ofModel ·) product).trans (zero_add_signed_zero _)

/-! ### The double nearest to an integer -/

/-- Bits of a double that is neither infinite nor undefined are kept. -/
theorem toBits_ofBits {b : UInt64} (finite : b.toNat / leadingBit % 2048 ≠ 2047) :
    (Float.ofBits b).toBits = b := by
  have valid : Format.binary64.Valid b.toBitVec := by
    refine ⟨fun all _ => absurd ?_ finite⟩
    exact (toNat_unpackExponent b.toBitVec).symm.trans (congrArg BitVec.toNat all)
  exact congrArg UInt64.ofBitVec (UnpackedFloat.pack_unpack_of_valid valid)

/-- The bits with a sign. -/
def signed (negative : Bool) (bits : ℕ) : ℕ := if negative then bits + signBit else bits

/-- The bits of a number that is not too large are those of a double, so they decode as they are. -/
theorem decode_ofBits (negative : Bool) (h : bits < 2047 * leadingBit) :
    decode (Float.ofBits (signed negative bits).toUInt64) = decodeBits (signed negative bits) := by
  have size : (signed negative bits).toUInt64.toNat = signed negative bits := by
    refine UInt64.toNat_ofNat_of_lt' ?_
    unfold signed
    split <;> simp only [signBit, leadingBit, UInt64.size] at * <;> omega
  rw [decode, toBits_ofBits, size]
  rw [size]
  unfold signed
  split <;> simp only [signBit, leadingBit] at * <;> omega

/-- A double is decoded into its sign, mantissa and exponent. -/
theorem decodeBits_signed (negative : Bool) (h : bits < 2047 * leadingBit) :
    decodeBits (signed negative bits) =
      if bits < leadingBit then .finite negative bits minExponent
      else .finite negative (leadingBit + bits % leadingBit)
        (minExponent + (bits / leadingBit - 1 : ℕ)) := by
  have sign : decide (signed negative bits / signBit % 2 = 1) = negative := by
    cases negative <;> simp [signed, signBit, leadingBit] at h ⊢ <;> omega
  have exponent : signed negative bits / leadingBit % 2048 = bits / leadingBit := by
    cases negative <;> simp [signed, signBit, leadingBit] at h ⊢ <;> omega
  have fraction : signed negative bits % leadingBit = bits % leadingBit := by
    cases negative
    · rfl
    · simp only [signed, signBit, leadingBit, if_true]
      omega
  have inRange : bits / leadingBit ≠ 2047 :=
    (Nat.div_lt_of_lt_mul (by rwa [Nat.mul_comm])).ne
  unfold decodeBits
  simp only [sign, exponent, fraction, inRange, if_false]
  by_cases small : bits < leadingBit
  · rw [Nat.div_eq_of_lt small, if_pos rfl, if_pos small, Nat.mod_eq_of_lt small]
  · have : bits / leadingBit ≠ 0 := (Nat.div_pos (by omega) (by decide)).ne'
    rw [if_neg this, if_neg small]

/-- The double nearest to an integer is that of its absolute value, with its sign. -/
theorem ofInt?_eq (n : ℤ) :
    ofInt? n = (ratioBits? n.natAbs 1).map fun bits =>
      Float.ofBits (signed (decide (n < 0)) bits).toUInt64 := by
  rw [ofInt?, ofRat?, Rat.num_intCast, Rat.den_intCast]
  refine congrArg (Option.map · _) (funext fun bits => ?_)
  by_cases negative : n < 0 <;> simp only [signed, negative, decide_true, decide_false, if_true,
    if_false, Bool.false_eq_true]

theorem log2Ratio_one {a : ℕ} (ha : a ≠ 0) : log2Ratio a 1 = a.log2 := by
  have below : 2 ^ a.log2 ≤ a := Nat.log2_self_le ha
  have one : Nat.log2 1 = 0 := by decide
  simp [log2Ratio, twos, one, below]

/-- The bits of the double nearest to a positive integer: there is an exponent, so that only the
size limits them. -/
theorem ratioBits?_one {a : ℕ} (ha : a ≠ 0) :
    ratioBits? a 1 =
      let m := roundDiv (a * twos (52 - a.log2)) (twos (a.log2 - 52))
      let bits := (a.log2 + 1022) * leadingBit + m
      if bits < 2047 * leadingBit then some bits else none := by
  have exponent : max ((a.log2 : ℤ) - 52) minExponent = a.log2 - 52 :=
    max_eq_left (by simp only [minExponent]; omega)
  have shift : ((a.log2 : ℤ) - 52 - minExponent).toNat = a.log2 + 1022 := by
    simp only [minExponent]
    omega
  rw [ratioBits?, if_neg ha, log2Ratio_one ha]
  simp only [exponent, shift, neg_sub, one_mul]

/-- The bits of a nearest double are below those of the infinities, and a nonzero integer is normal.
-/
theorem ratioBits?_bounds {a : ℕ} (h : ratioBits? a 1 = some bits) :
    bits < 2047 * leadingBit ∧ (a ≠ 0 → leadingBit ≤ bits) := by
  by_cases ha : a = 0
  · subst ha
    cases h
    exact ⟨by decide, fun impossible => absurd rfl impossible⟩
  · rw [ratioBits?_one ha] at h
    simp only at h
    split at h
    · rename_i inRange
      cases h
      refine ⟨inRange, fun _ => ?_⟩
      calc leadingBit ≤ (a.log2 + 1022) * leadingBit := Nat.le_mul_of_pos_left _ (by omega)
        _ ≤ _ := Nat.le_add_right ..
    · cases h

/-- No integer rounds to the negative zero. -/
theorem isPlain_ofInt? {n : ℤ} (h : ofInt? n = some x) : IsPlain x := by
  rw [ofInt?_eq] at h
  obtain ⟨bits, nearest, rfl⟩ := Option.map_eq_some_iff.1 h
  obtain ⟨inRange, large⟩ := ratioBits?_bounds nearest
  have decoded := decode_ofBits (decide (n < 0)) inRange
  rw [decodeBits_signed _ inRange] at decoded
  split at decoded
  · rename_i small
    -- too small for any integer but zero
    have zero : n.natAbs = 0 := by
      by_contra nonzero
      exact absurd (large nonzero) (by omega)
    refine ⟨_, _, _, decoded, fun _ => ?_⟩
    simp only [decide_eq_false_iff_not]
    omega
  · exact ⟨_, _, _, decoded, fun zero => absurd zero (by simp [leadingBit])⟩

theorem roundDiv_one (a : ℕ) : roundDiv a 1 = a := by
  simp [roundDiv, Nat.mod_one]

theorem twos_of_nonpos {k : ℤ} (h : k ≤ 0) : twos k = 1 :=
  congrArg (Nat.pow 2) (Int.toNat_eq_zero.2 h)

/-- A mantissa has its leading bit when the exponent is taken so. -/
theorem mantissa_bounds {a : ℕ} (ha : a ≠ 0) (small : a.log2 ≤ 52) :
    leadingBit ≤ a * twos (52 - a.log2) ∧ a * twos (52 - a.log2) < 2 * leadingBit := by
  have exponent : ((52 : ℤ) - a.log2).toNat = 52 - a.log2 := by omega
  have split : leadingBit = 2 ^ a.log2 * 2 ^ (52 - a.log2) := by
    rw [← pow_add, Nat.add_sub_cancel' small]
    rfl
  have scale : twos (52 - a.log2) = 2 ^ (52 - a.log2) := congrArg (Nat.pow 2) exponent
  rw [scale, split, ← Nat.mul_assoc, ← pow_succ']
  exact ⟨Nat.mul_le_mul_right _ (Nat.log2_self_le ha),
    Nat.mul_lt_mul_of_pos_right Nat.lt_log2_self (Nat.two_pow_pos _)⟩

/-- An integer below `2 ^ 53` in size, as sign, mantissa and exponent. -/
theorem decode_ofInt? {n : ℤ} (nonzero : n.natAbs ≠ 0) (small : n.natAbs < 2 ^ 53) :
    ∃ x, ofInt? n = some x ∧ decode x = .finite (decide (n < 0))
      (n.natAbs * twos (52 - n.natAbs.log2)) (n.natAbs.log2 - 52) := by
  have short : n.natAbs.log2 ≤ 52 := Nat.le_of_lt_succ ((Nat.log2_lt nonzero).2 small)
  obtain ⟨leading, below⟩ := mantissa_bounds nonzero short
  have whole := twos_of_nonpos (k := n.natAbs.log2 - 52) (by omega)
  have bits := ratioBits?_one nonzero
  simp only [whole, roundDiv_one] at bits
  generalize n.natAbs * twos (52 - n.natAbs.log2) = m at *
  have inRange : (n.natAbs.log2 + 1022) * leadingBit + m < 2047 * leadingBit := by
    simp only [leadingBit] at *
    omega
  rw [if_pos inRange] at bits
  refine ⟨_, by rw [ofInt?_eq, bits]; rfl, ?_⟩
  rw [decode_ofBits _ inRange, decodeBits_signed _ inRange,
    if_neg (by simp only [leadingBit]; omega)]
  simp only [leadingBit, minExponent] at *
  congr 1 <;> omega

theorem scaledRat_integer {k : ℤ} (a : ℕ) (h : k ≤ 0) : scaledRat (a * twos (-k)) k = a := by
  have positive : (twos (-k) : ℚ) ≠ 0 := Nat.cast_ne_zero.2 (twos_pos _).ne'
  rw [scaledRat, twos_of_nonpos h, mul_one, Rat.mkRat_eq_div]
  push_cast
  exact mul_div_cancel_right₀ _ positive

theorem finiteValue?_zero : Number.finiteValue? 0 = some 0 := by
  have decoded : decode 0 = .finite false 0 minExponent := by decide
  simp [Number.finiteValue?, decoded, scaledRat]

/-- Integers up to `2 ^ 53` in size are doubles exactly. -/
theorem finiteValue?_ofInt? {n : ℤ} (h : n.natAbs ≤ 2 ^ 53) :
    ∃ x, ofInt? n = some x ∧ Number.finiteValue? x = some (n : ℚ) := by
  obtain rfl | rfl | rfl | ⟨nonzero, small⟩ :
      n = 0 ∨ n = 2 ^ 53 ∨ n = -2 ^ 53 ∨ n.natAbs ≠ 0 ∧ n.natAbs < 2 ^ 53 := by omega
  · exact ⟨0, by decide, finiteValue?_zero⟩
  · exact ⟨.ofBits 0x4340000000000000, by decide, by decide⟩
  · exact ⟨.ofBits 0xC340000000000000, by decide, by decide⟩
  · obtain ⟨x, nearest, decoded⟩ := decode_ofInt? nonzero small
    have short : (n.natAbs.log2 : ℤ) - 52 ≤ 0 := by
      have := (Nat.log2_lt nonzero).2 small
      omega
    have value := scaledRat_integer n.natAbs short
    rw [neg_sub] at value
    refine ⟨x, nearest, ?_⟩
    rw [Number.finiteValue?, decoded]
    simp only [value, decide_eq_true_eq, Option.some_inj]
    -- the size with the sign is the integer
    split
    · rename_i negative
      rw [← Int.cast_natCast, Int.ofNat_natAbs_of_nonpos negative.le]
      simp
    · rename_i negative
      rw [← Int.cast_natCast, Int.natAbs_of_nonneg (not_lt.1 negative)]

/-- A double can be divided by an integer that is not too large. -/
theorem exists_divisor {n : ℕ} (positive : 0 < n) (small : n < 2 ^ 53) :
    ∃ x, ofInt? n = some x ∧ Number.finiteValue? x = some (n : ℚ) ∧ (x == 0) = false := by
  obtain ⟨x, nearest, value⟩ := finiteValue?_ofInt? (n := n) (by omega)
  obtain ⟨y, nearest', decoded⟩ := decode_ofInt? (n := n) (by omega) (by omega)
  obtain rfl := Option.some.inj (nearest.symm.trans nearest')
  have mantissa : (n : ℤ).natAbs * twos (52 - (n : ℤ).natAbs.log2) ≠ 0 :=
    Nat.mul_ne_zero (by omega) (twos_pos _).ne'
  exact ⟨x, nearest, by simpa using value, beq_zero_eq_false decoded mantissa⟩

end Fluxion.Decimal
