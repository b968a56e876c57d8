import Fluxion.Text.Split
import Fluxion.Unicode.Blank

/-!
# Classes of characters

The tables of letters, digits and blanks have nothing in common, and none of them holds a bracket,
a sign or a point. What can stand in an expression is told apart by its first character.
-/

namespace Fluxion
set_option autoImplicit false

namespace Unicode

/-- Whether no code point lies in ranges of both lists. -/
def disjoint (as bs : List (Nat × Nat)) : Bool :=
  as.all fun r => bs.all fun s => decide (r.2 < s.1) || decide (s.2 < r.1)

/-- Lists of ranges that are checked to be disjoint share no character. -/
theorem inRanges_of_disjoint {as bs : List (Nat × Nat)} {c : Char} (h : disjoint as bs = true)
    (hc : inRanges as c = true) : inRanges bs c = false := by
  obtain ⟨r, hr, lower, upper⟩ := inRanges_iff.1 hc
  rw [← Bool.not_eq_true, inRanges_iff]
  rintro ⟨s, hs, lower', upper'⟩
  have apart := List.all_eq_true.1 (List.all_eq_true.1 h r hr) s hs
  simp only [Bool.or_eq_true, decide_eq_true_eq] at apart
  omega

/-- The ranges of decimal digits. -/
def decimalRanges : List (Nat × Nat) := zeros.map fun z => (z, z + 9)

theorem letters_apart_from_decimals : disjoint letterRanges decimalRanges = true := by
  decide +kernel

theorem letters_apart_from_figures : disjoint letterRanges figureRanges = true := by
  decide +kernel

theorem letters_apart_from_blanks : disjoint letterRanges blankRanges = true := by
  decide +kernel

theorem decimals_apart_from_blanks : disjoint decimalRanges blankRanges = true := by
  decide +kernel

variable {c : Char}

theorem isAlpha_iff :
    c.isAlpha = true ↔ (65 ≤ c.toNat ∧ c.toNat ≤ 90) ∨ (97 ≤ c.toNat ∧ c.toNat ≤ 122) := by
  show (decide (65 ≤ c.val ∧ c.val ≤ 90) || (decide (97 ≤ c.val) && decide (c.val ≤ 122))) = true ↔
    _
  simp [UInt32.le_iff_toNat_le]

theorem isDigit_iff : c.isDigit = true ↔ 48 ≤ c.toNat ∧ c.toNat ≤ 57 := by
  simp [Char.isDigit, UInt32.le_iff_toNat_le]

/-- No letter is a digit: their ranges do not meet. -/
theorem isDigit_of_isLetter (h : isLetter c = true) : isDigit c = false := by
  unfold isLetter at h
  split at h
  · rename_i ascii
    rw [isAlpha_iff] at h
    have none : decimalValue? c = none := by
      unfold decimalValue?
      rw [if_neg (by omega), if_pos ascii]
    simp only [isDigit, isDecimalDigit, none, Option.isSome_none, Bool.false_or]
    simp [show ¬128 ≤ c.toNat by omega]
  · rename_i beyond
    have figures := inRanges_of_disjoint letters_apart_from_figures h
    have decimals := inRanges_of_disjoint letters_apart_from_decimals h
    have none : decimalValue? c = none := by
      unfold decimalValue?
      rw [if_neg (by omega), if_neg beyond, Option.map_eq_none_iff, List.find?_eq_none]
      intro z hz inside
      rw [← Bool.not_eq_true, inRanges_iff] at decimals
      simp only [Bool.and_eq_true, decide_eq_true_eq] at inside
      exact decimals ⟨(z, z + 9), List.mem_map_of_mem hz, inside.1, by simp only; omega⟩
    simp [isDigit, isDecimalDigit, none, figures]

theorem isBlank_of_isLetter (h : isLetter c = true) : isBlank c = false := by
  unfold isLetter at h
  split at h
  · rw [isAlpha_iff] at h
    have apart : ∀ r ∈ blankRanges, r.2 < 65 ∨ 122 < r.1 := by decide
    rw [← Bool.not_eq_true, isBlank, inRanges_iff]
    rintro ⟨r, hr, lower, upper⟩
    have := apart r hr
    omega
  · exact inRanges_of_disjoint letters_apart_from_blanks h

/-- The value of an ASCII digit. -/
theorem decimalValue?_of_isDigit (h : c.isDigit = true) :
    decimalValue? c = some (c.toNat - 48) :=
  if_pos (isDigit_iff.1 h)

/-- The ten plain digits are among the digits. -/
theorem isDigit_of_ascii (h : c.isDigit = true) : isDigit c = true := by
  simp [isDigit, isDecimalDigit, decimalValue?_of_isDigit h]

theorem isLetter_of_isDigit (h : isDigit c = true) : isLetter c = false := by
  rw [← Bool.not_eq_true]
  intro letter
  have := isDigit_of_isLetter letter
  rw [h] at this
  contradiction

theorem isLetter_of_ascii (h : c.isDigit = true) : isLetter c = false :=
  isLetter_of_isDigit (isDigit_of_ascii h)

/-- Only a character of the decimal ranges has a value as a digit. -/
theorem inRanges_of_decimalValue? {v : Nat} (h : decimalValue? c = some v) :
    inRanges decimalRanges c = true := by
  have range {z : Nat} (hz : z ∈ zeros) (lower : z ≤ c.toNat) (upper : c.toNat ≤ z + 9) :
      inRanges decimalRanges c = true :=
    inRanges_iff.2 ⟨(z, z + 9), List.mem_map_of_mem hz, lower, upper⟩
  unfold decimalValue? at h
  split at h
  · rename_i ascii
    exact range (z := 48) (by decide) ascii.1 ascii.2
  · split at h
    · contradiction
    · obtain ⟨z, found, -⟩ := Option.map_eq_some_iff.1 h
      have inside := List.find?_some found
      simp only [Bool.and_eq_true, decide_eq_true_eq] at inside
      exact range (List.mem_of_find?_eq_some found) inside.1 (by omega)

theorem isBlank_of_decimalValue? {v : Nat} (h : decimalValue? c = some v) : isBlank c = false :=
  inRanges_of_disjoint decimals_apart_from_blanks (inRanges_of_decimalValue? h)

theorem isBlank_of_ascii (h : c.isDigit = true) : isBlank c = false :=
  isBlank_of_decimalValue? (decimalValue?_of_isDigit h)

end Unicode

namespace Text

open Unicode

/-- A character that is neither a bracket nor a sign. -/
structure Plain (c : Char) : Prop where
  opening : isOpening c = false
  closing : isClosing c = false
  sign : Op.ofSign? c = none

/-- A letter that names no axis. -/
structure NameLetter (c : Char) : Prop where
  letter : isLetter c = true
  other : isAxisLetter c = false

variable {c : Char}

theorem isOpening_iff : isOpening c = true ↔ c = '(' ∨ c = '[' ∨ c = '{' := by
  simp [isOpening, or_assoc]

theorem isClosing_iff : isClosing c = true ↔ c = ')' ∨ c = ']' ∨ c = '}' := by
  simp [isClosing, or_assoc]

/-- The letters of the axes are the only ones that may be variables. -/
theorem isAxisLetter_iff : isAxisLetter c = true ↔ ∃ a : Axis, c = a.letter := by
  constructor
  · intro h
    unfold isAxisLetter Axis.ofLetter? at h
    split at h
    · exact ⟨.x, by assumption⟩
    · split at h
      · exact ⟨.y, by assumption⟩
      · split at h
        · exact ⟨.z, by assumption⟩
        · contradiction
  · rintro ⟨a, rfl⟩
    cases a <;> rfl

/-- The brackets and the signs. -/
def marks : List Char := ['(', '[', '{', ')', ']', '}', '+', '-', '*', '/', '^']

/-- A character that is none of the marks is plain. -/
theorem plain_of_not_mem_marks (h : c ∉ marks) : Plain c where
  opening := by
    rw [← Bool.not_eq_true, isOpening_iff]
    rintro (rfl | rfl | rfl) <;> exact h (by decide)
  closing := by
    rw [← Bool.not_eq_true, isClosing_iff]
    rintro (rfl | rfl | rfl) <;> exact h (by decide)
  sign := by
    rw [Option.eq_none_iff_forall_ne_some]
    intro op found
    rw [← Op.sign_of_ofSign? found] at h
    cases op <;> exact h (by decide)

theorem plain_of_isLetter (h : isLetter c = true) : Plain c := by
  refine plain_of_not_mem_marks ?_
  intro mark
  have apart : marks.all (fun d => !isLetter d) = true := by decide
  have other := List.all_eq_true.1 apart c mark
  rw [h] at other
  contradiction

theorem plain_of_isDigit (h : isDigit c = true) : Plain c := by
  refine plain_of_not_mem_marks ?_
  intro mark
  have apart : marks.all (fun d => !isDigit d) = true := by decide
  have other := List.all_eq_true.1 apart c mark
  rw [h] at other
  contradiction

theorem plain_point : Plain '.' := plain_of_not_mem_marks (by decide)

theorem isLetter_of_isAxisLetter (h : isAxisLetter c = true) : isLetter c = true := by
  obtain ⟨a, rfl⟩ := isAxisLetter_iff.1 h
  cases a <;> decide

/-- The letters of the named functions name no axis. -/
theorem nameLetter_of_kind {k : Kind} (h : c ∈ k.letters) : NameLetter c := by
  have letters : (Kind.all.all fun k => k.letters.all fun d =>
      isLetter d && !isAxisLetter d) = true := by decide
  have both := List.all_eq_true.1 (List.all_eq_true.1 letters k (Kind.mem_all k)) c h
  rw [Bool.and_eq_true, Bool.not_eq_true'] at both
  exact ⟨both.1, both.2⟩

end Text

end Fluxion
