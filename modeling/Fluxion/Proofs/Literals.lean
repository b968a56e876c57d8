import Mathlib.Algebra.Field.Rat
import Mathlib.Data.List.Basic
import Mathlib.Data.Nat.Digits.Defs
import Mathlib.Data.Rat.Cast.Defs
import Fluxion.Literal
import Fluxion.Proofs.Scanning

/-!
# Literals

A run of decimal digits writes a number in base ten, whatever scripts the digits are of. A literal
is one run, or two with a point between them (`IsLiteral`). The reader of literals takes these and
no others (`value?_eq_some_iff`), except that one line end may follow (`line?_eq_some_iff`). What it
takes it reads, unless there are too many digits (`read_eq_error_iff`). The scan of an expression
knows more digits than the reader, so to it a literal is a run of digits as well, and is not cut
(`IsLiteral.scanned`).
-/

namespace Fluxion
set_option autoImplicit false
open Unicode

/-- The characters are decimal digits with these values, and there is one at least. -/
structure IsRun (ds : List Char) (values : List ℕ) : Prop where
  nonempty : ds ≠ []
  values_eq : ds.map decimalValue? = values.map some

/-- The text writes the number in base ten, with as many factors of ten below as there are digits
after the point. -/
inductive IsLiteral : List Char → ℚ → Prop where
  | whole {ds vs} : IsRun ds vs → IsLiteral ds (Nat.ofDigits 10 vs.reverse : ℕ)
  | decimal {ds es vs ws} : IsRun ds vs → IsRun es ws →
    IsLiteral (ds ++ '.' :: es) ((Nat.ofDigits 10 (vs ++ ws).reverse : ℕ) / 10 ^ es.length)

variable {c : Char} {s t ds es : List Char} {vs ws : List ℕ} {q : ℚ}

theorem IsRun.exists_value (h : IsRun ds vs) (hc : c ∈ ds) : ∃ v, decimalValue? c = some v := by
  have mem : decimalValue? c ∈ vs.map some := h.values_eq ▸ List.mem_map_of_mem hc
  obtain ⟨v, -, same⟩ := List.mem_map.1 mem
  exact ⟨v, same.symm⟩

theorem IsRun.isDigit (h : IsRun ds vs) (hc : c ∈ ds) : isDigit c = true := by
  obtain ⟨v, value⟩ := h.exists_value hc
  exact isDigit_of_isDecimalDigit (by simp [isDecimalDigit, value])

theorem IsRun.head (h : IsRun ds vs) : ∃ d t, ds = d :: t ∧ Unicode.isDigit d = true := by
  obtain ⟨d, t, rfl⟩ := List.exists_cons_of_ne_nil h.nonempty
  exact ⟨d, t, rfl, h.isDigit (List.mem_cons_self ..)⟩

theorem IsRun.ne_point (h : IsRun ds vs) (hc : c ∈ ds) : c ≠ '.' := by
  rintro rfl
  have digit := h.isDigit hc
  revert digit
  decide

theorem IsRun.length_eq (h : IsRun ds vs) : vs.length = ds.length := by
  simpa using (congrArg List.length h.values_eq).symm

/-- A run has as many digits as characters. -/
theorem IsRun.countP_eq (h : IsRun ds vs) : ds.countP isDecimalDigit = ds.length := by
  refine List.countP_eq_length.2 fun c hc => ?_
  obtain ⟨v, value⟩ := h.exists_value hc
  rw [isDecimalDigit, value]
  rfl

/-- The point is no digit. -/
theorem countP_decimal (run : IsRun ds vs) (run' : IsRun es ws) :
    (ds ++ '.' :: es).countP isDecimalDigit = ds.length + es.length := by
  have point : isDecimalDigit '.' = false := by decide
  rw [List.countP_append, List.countP_cons_of_neg (by simp [point]), run.countP_eq,
    run'.countP_eq]

/-! ### The reader of literals -/

namespace Literal

theorem digitValues?_eq_some_iff :
    digitValues? s = some vs ↔ s.map decimalValue? = vs.map some := by
  induction s generalizing vs with
  | nil => cases vs <;> simp [digitValues?]
  | cons c s ih =>
    rw [digitValues?, List.map_cons]
    cases vs with
    | nil => split <;> simp
    | cons v vs =>
      rw [List.map_cons, List.cons.injEq, ← ih]
      cases decimalValue? c <;> cases digitValues? s <;> simp

/-- A text is read as a run of digits when it is one. -/
theorem run?_eq_some_iff : run? s = some vs ↔ IsRun s vs := by
  unfold run?
  split
  · rename_i empty
    exact ⟨fun h => by contradiction, fun h => absurd empty h.nonempty⟩
  · rename_i nonempty
    rw [digitValues?_eq_some_iff]
    exact ⟨fun same => ⟨nonempty, same⟩, IsRun.values_eq⟩

/-- A text without a point is not cut. -/
theorem cutAtPoint_of_no_point (h : ∀ c ∈ s, c ≠ '.') : cutAtPoint s = (s, none) := by
  induction s with
  | nil => rfl
  | cons c s ih =>
    rw [cutAtPoint, if_neg (h c (List.mem_cons_self ..)),
      ih fun c hc => h c (List.mem_cons_of_mem _ hc)]

/-- A text is cut at its first point. -/
theorem cutAtPoint_point (h : ∀ c ∈ s, c ≠ '.') (t : List Char) :
    cutAtPoint (s ++ '.' :: t) = (s, some t) := by
  induction s with
  | nil => rfl
  | cons c s ih =>
    rw [List.cons_append, cutAtPoint, if_neg (h c (List.mem_cons_self ..)),
      ih fun c hc => h c (List.mem_cons_of_mem _ hc)]

/-- The two parts and the point make the text. -/
theorem join_cutAtPoint (s : List Char) :
    (cutAtPoint s).1 ++ ((cutAtPoint s).2.map ('.' :: ·)).getD [] = s := by
  induction s with
  | nil => rfl
  | cons c s ih =>
    rw [cutAtPoint]
    split
    · rename_i point
      rw [point]
      rfl
    · exact congrArg (c :: ·) ih

/-- Digits are read from the leading one on, and the library writes them from the last one on. -/
theorem ofValues_eq (vs : List ℕ) : Decimal.ofValues vs = Nat.ofDigits 10 vs.reverse := by
  rw [Decimal.ofValues, Nat.ofDigits_eq_foldr, List.foldr_reverse]
  simp only [Nat.cast_id, Nat.add_comm]

/-- The number that one run of digits is read as. -/
theorem mkRat_ofValues (vs : List ℕ) :
    mkRat (Decimal.ofValues vs) 1 = ((Nat.ofDigits 10 vs.reverse : ℕ) : ℚ) := by
  rw [ofValues_eq, Rat.mkRat_one]
  exact Int.cast_natCast _

/-- The number that two runs of digits are read as. -/
theorem mkRat_ofValues_append (vs ws : List ℕ) :
    mkRat (Decimal.ofValues (vs ++ ws)) (Decimal.tens ws.length) =
      ((Nat.ofDigits 10 (vs ++ ws).reverse : ℕ) : ℚ) / 10 ^ ws.length := by
  rw [ofValues_eq, Rat.mkRat_eq_div, Decimal.tens]
  simp

/-- Every literal is read, at its value. -/
theorem value?_of_isLiteral (h : IsLiteral s q) : value? s = some q := by
  cases h with
  | whole run =>
    rw [value?, cutAtPoint_of_no_point fun c hc => run.ne_point hc]
    simp only [run?_eq_some_iff.2 run, Option.map_some, mkRat_ofValues]
  | decimal run run' =>
    rw [value?, cutAtPoint_point fun c hc => run.ne_point hc]
    simp only [run?_eq_some_iff.2 run, run?_eq_some_iff.2 run']
    rw [mkRat_ofValues_append, run'.length_eq]

/-- Literals are read as what they write, and nothing else is read. -/
theorem value?_eq_some_iff : value? s = some q ↔ IsLiteral s q := by
  refine ⟨fun h => ?_, value?_of_isLiteral⟩
  have joined := join_cutAtPoint s
  unfold value? at h
  split at h
  · rename_i ds cut
    obtain ⟨vs, run, rfl⟩ := Option.map_eq_some_iff.1 h
    obtain rfl : ds = s := by simpa [cut] using joined
    rw [mkRat_ofValues]
    exact .whole (run?_eq_some_iff.1 run)
  · rename_i ds es cut
    obtain rfl : ds ++ '.' :: es = s := by simpa [cut] using joined
    split at h
    · rename_i vs ws run run'
      have digits := run?_eq_some_iff.1 run'
      cases h
      rw [mkRat_ofValues_append, digits.length_eq]
      exact .decimal (run?_eq_some_iff.1 run) digits
    · contradiction

/-- One newline at the end is passed over. -/
theorem line?_eq (s : List Char) :
    line? s = if s.getLast? = some '\n' then value? s.dropLast else value? s := by
  unfold line?
  split
  · rename_i last
    rw [if_pos last]
  · rename_i other
    rw [if_neg other]

end Literal

/-! ### Literals in an expression -/

namespace IsLiteral

/-- A literal starts with a digit. -/
theorem head (h : IsLiteral s q) : ∃ d t, s = d :: t ∧ isDigit d = true := by
  cases h with
  | whole run => exact run.head
  | @decimal _ es _ _ run _ =>
    obtain ⟨d, t, rfl, digit⟩ := run.head
    exact ⟨d, t ++ '.' :: es, rfl, digit⟩

/-- It consists of decimal digits and perhaps a point. -/
theorem digit_or_point (h : IsLiteral s q) (hc : c ∈ s) :
    (∃ v, decimalValue? c = some v) ∨ c = '.' := by
  cases h with
  | whole run => exact .inl (run.exists_value hc)
  | decimal run run' =>
    rcases List.mem_append.1 hc with hc | hc
    · exact .inl (run.exists_value hc)
    · rcases List.mem_cons.1 hc with rfl | hc
      · exact .inr rfl
      · exact .inl (run'.exists_value hc)

theorem isBlank_eq_false (h : IsLiteral s q) (hc : c ∈ s) : isBlank c = false := by
  obtain ⟨v, value⟩ | rfl := h.digit_or_point hc
  · exact isBlank_of_decimalValue? value
  · decide

/-- A literal is scanned as one token. -/
theorem scanned (h : IsLiteral s q) : Text.Scanned 0 s := by
  cases h with
  | whole run => exact Text.scanned_digits (fun c hc => run.isDigit hc) run.nonempty
  | decimal run run' =>
    exact Text.scanned_decimal (fun c hc => run.isDigit hc) (fun c hc => run'.isDigit hc)
      run.nonempty run'.nonempty

theorem getLast?_ne_newline (h : IsLiteral s q) : s.getLast? ≠ some '\n' := by
  intro last
  obtain ⟨v, value⟩ | point := h.digit_or_point (List.mem_of_getLast? last)
  · have none : decimalValue? '\n' = none := by decide
    rw [none] at value
    contradiction
  · contradiction

end IsLiteral

/-- The line is a literal, with the line end or without it. -/
def IsLine (s : List Char) (q : ℚ) : Prop :=
  IsLiteral s q ∨ ∃ t, s = t ++ ['\n'] ∧ IsLiteral t q

namespace Literal

/-- On a line of its own a literal is taken with the line end or without it. -/
theorem line?_eq_some_iff : line? s = some q ↔ IsLine s q := by
  rw [line?_eq]
  constructor
  · intro h
    split at h
    · rename_i last
      exact .inr ⟨s.dropLast, (List.dropLast_append_getLast? _ last).symm, value?_eq_some_iff.1 h⟩
    · exact .inl (value?_eq_some_iff.1 h)
  · rintro (h | ⟨t, rfl, h⟩)
    · rw [if_neg h.getLast?_ne_newline, value?_of_isLiteral h]
    · simp [value?_of_isLiteral h]

/-- A text is not read when it is no line of a literal. -/
theorem line?_eq_none_iff : line? s = none ↔ ∀ q, ¬IsLine s q := by
  simp only [Option.eq_none_iff_forall_ne_some, Ne, line?_eq_some_iff]

/-- A literal is read as what it writes, or it has too many digits. -/
theorem read_of_isLine (h : IsLine s q) :
    read s = if isReadable s then .ok (some q) else .error .tooManyDigits := by
  rw [read, line?_eq_some_iff.2 h]

theorem read_eq_none_iff : read s = .ok none ↔ ∀ q, ¬IsLine s q := by
  rw [← line?_eq_none_iff, read]
  cases line? s with
  | none => simp
  | some q =>
    dsimp only
    split <;> simp

/-- What is read is a literal with few enough digits. -/
theorem read_eq_some_iff : read s = .ok (some q) ↔ IsLine s q ∧ isReadable s = true := by
  rw [← line?_eq_some_iff, read]
  cases line? s with
  | none => simp
  | some p =>
    dsimp only
    split <;> simp_all

/-- Only a literal with too many digits is refused. -/
theorem read_eq_error_iff {fault : Fault} :
    read s = .error fault ↔
      fault = .tooManyDigits ∧ isReadable s = false ∧ ∃ q, IsLine s q := by
  simp only [← line?_eq_some_iff, read]
  cases line? s with
  | none => simp
  | some p =>
    cases isReadable s with
    | true => simp
    | false =>
      constructor
      · intro h
        exact ⟨(Except.error.inj h).symm, rfl, p, rfl⟩
      · rintro ⟨rfl, -⟩
        rfl

end Literal

end Fluxion
