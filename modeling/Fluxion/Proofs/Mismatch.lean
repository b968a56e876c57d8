import Fluxion.Proofs.Failure

/-!
# Mismatched brackets

A text is mismatched when some part at its front closes more brackets than it opens, or when the
whole does not close what it opens (`Mismatched`). Reading reports every mismatched text as such,
and what it reports otherwise has a digit or a point directly behind a closing bracket
(`build_mismatched`): without one, all that is read of a matched text is matched again. A group with
such a figure behind it is reported although it is matched (`parse_trailed_group`), because its
argument loses the figure and keeps the bracket that closes it.
-/

namespace Fluxion
set_option autoImplicit false
open Fluxion.Text

namespace Text

/-- How many more brackets a text opens than it closes. -/
def depth (text : List Char) : Int := text.countP isOpening - text.countP isClosing

/-- The depth drops below zero somewhere, or is not zero at the end. -/
def Mismatched (text : List Char) : Prop := (∃ p, p <+: text ∧ depth p < 0) ∨ depth text ≠ 0

variable {text : List Char} {c : Char} {d k : Nat}

theorem depth_opening (h : isOpening c = true) (text : List Char) :
    depth (c :: text) = depth text + 1 := by
  simp only [depth, List.countP_cons, h, not_isClosing_of_isOpening h]
  push_cast
  omega

theorem depth_closing (h : isClosing c = true) (text : List Char) :
    depth (c :: text) = depth text - 1 := by
  simp only [depth, List.countP_cons, h, not_isOpening_of_isClosing h]
  push_cast
  omega

theorem depth_other (opening : isOpening c = false) (closing : isClosing c = false)
    (text : List Char) : depth (c :: text) = depth text := by
  simp [depth, opening, closing]

/-- Above a depth `e` everywhere: at the start, and behind the first character. -/
theorem forall_prefix_cons {e : Int} :
    (∀ p, p <+: c :: text → 0 ≤ e + depth p) ↔
      0 ≤ e ∧ ∀ p, p <+: text → 0 ≤ e + depth (c :: p) := by
  constructor
  · intro above
    exact ⟨by simpa [depth] using above [] List.nil_prefix,
      fun p hp => above (c :: p) (by simpa using hp)⟩
  · rintro ⟨start, above⟩ p hp
    obtain rfl | ⟨t, rfl, ht⟩ := List.prefix_cons_iff.1 hp
    · simpa [depth] using start
    · exact above t ht

/-- The scan from depth `d` on ends as long as the depth does not drop below zero. -/
theorem depthFrom_eq_some_iff :
    depthFrom d text = some k ↔ (∀ p, p <+: text → 0 ≤ d + depth p) ∧ d + depth text = k := by
  induction text generalizing d with
  | nil => simp [depthFrom, depth, List.prefix_nil]
  | cons c text ih =>
    rw [forall_prefix_cons]
    cases opening : isOpening c with
    | true =>
      simp only [depthFrom_opening opening, depth_opening opening, ih]
      grind
    | false =>
      cases closing : isClosing c with
      | true =>
        simp only [depth_closing closing]
        cases d with
        | zero =>
          -- The closing bracket alone is already below zero.
          have none : depthFrom 0 (c :: text) = none := by simp [depthFrom, opening, closing]
          rw [none]
          constructor
          · intro closed
            contradiction
          · rintro ⟨⟨-, above⟩, -⟩
            exact absurd (above [] List.nil_prefix) (by decide)
        | succ d =>
          rw [depthFrom_closing closing, ih]
          grind
      | false =>
        simp only [depthFrom_other opening closing, depth_other opening closing, ih]
        grind

theorem mismatched_iff : Mismatched text ↔ depthFrom 0 text ≠ some 0 := by
  rw [Ne, depthFrom_eq_some_iff, Mismatched]
  grind

end Text

section Reading

variable {ctx : Context} {dim : Nat} {text s : List Char} {o c x : Char}

/-- A mismatched text is reported, unless it is a name. -/
theorem parse_mismatched (unnamed : ctx.hasName text = false) (h : Mismatched text) :
    parse ctx dim text = .error (.parse .mismatchedBracket) := by
  rw [mismatched_iff] at h
  have nonempty : text ≠ [] := by
    rintro rfl
    exact h rfl
  have unbalanced : ¬isBalanced text = true := fun balanced => h (of_decide_eq_true balanced)
  refine parse_error unnamed ?_
  rw [split, if_neg nonempty, if_neg unbalanced]

/-- A text that is reported is mismatched, unless a figure stands behind a closing bracket. -/
theorem mismatched_of_parse (tidy : ¬Trailed text)
    (h : parse ctx dim text = .error (.parse .mismatchedBracket)) : Mismatched text := by
  rw [mismatched_iff]
  intro balanced
  obtain ⟨s, piece, fails⟩ := exists_piece_of_parse_error h
  cases fails with
  | mismatched unbalanced => exact unbalanced (piece.balanced balanced tidy)

/-- Every mismatched text is reported as such, and no other one but with a figure directly behind a
closing bracket. -/
theorem build_mismatched {n : Int} (arity : Context.isArity n = true) (text : List Char) :
    (Mismatched (withoutBlanks text) → build {} n text = .error (.parse .mismatchedBracket)) ∧
      (build {} n text = .error (.parse .mismatchedBracket) →
        Mismatched (withoutBlanks text) ∨ Trailed (withoutBlanks text)) := by
  rw [build_eq_parse arity]
  constructor
  · intro h
    exact parse_mismatched rfl h
  · intro h
    by_cases trailed : Trailed (withoutBlanks text)
    · exact .inr trailed
    · exact .inl (mismatched_of_parse trailed h)

theorem build_mismatched_unclosed :
    Context.isArity 1 = true ∧ Mismatched (withoutBlanks ['(', ' ', 'x']) ∧
      build {} 1 ['(', ' ', 'x'] = .error (.parse .mismatchedBracket) := by
  have unclosed : Mismatched (withoutBlanks ['(', ' ', 'x']) := .inr (by decide)
  exact ⟨rfl, unclosed, (build_mismatched rfl ['(', ' ', 'x']).1 unclosed⟩

/-- A group is cut off a figure behind it together with the bracket that closes it. -/
theorem split_trailed_group (ho : isOpening o = true) (hc : isClosing c = true)
    (hx : Unicode.isDigit x = true ∨ x = '.') (balanced : depthFrom 0 s = some 0) :
    split (o :: (s ++ [c]) ++ [x]) = .ok (.call [] (unwrap (s ++ [c]))) := by
  have plain : Plain x := by
    rcases hx with digit | rfl
    · exact plain_of_isDigit digit
    · exact plain_point
  have noFactor : startsAtom x = false := by
    rcases hx with digit | rfl
    · simp [startsAtom, digit]
    · rfl
  have whole : depthFrom 0 (o :: (s ++ [c]) ++ [x]) = some 0 := by
    rw [depthFrom_append, depthFrom_brackets ho hc balanced]
    exact depthFrom_other plain.opening plain.closing
  have found : cuts (o :: (s ++ [c]) ++ [x]) = [] ++ ⟨.call, [], s ++ [c, x]⟩ :: [] := by
    rw [cuts, scan_brackets ho hc balanced, juncture_cons_of_not_starts noFactor,
      cutsFrom_plain plain]
    rfl
  rw [split_of_cuts (by simp) whole found (by simp) (by simp)]
  simp [Cut.split, Cut.before, List.dropLast_append_of_ne_nil, unwrap]

/-- A group with a figure behind it is reported, although its brackets match. -/
theorem parse_trailed_group (ho : isOpening o = true) (hc : isClosing c = true)
    (hx : Unicode.isDigit x = true ∨ x = '.') (balanced : depthFrom 0 s = some 0) :
    parse {} dim (o :: (s ++ [c]) ++ [x]) = .error (.parse .mismatchedBracket) := by
  have operand : unwrap (s ++ [c]) = s ++ [c] := by
    by_cases nothing : s = []
    · subst nothing
      exact unwrap_of_not_opening (not_isOpening_of_isClosing hc) []
    · exact unwrap_append balanced nothing (by simp)
  rw [parse_brackets rfl (split_trailed_group ho hc hx balanced), operand]
  refine parse_mismatched rfl (mismatched_iff.2 ?_)
  rw [depthFrom_append, balanced]
  simp [depthFrom, hc, not_isOpening_of_isClosing hc]

theorem build_trailed_group :
    ¬Mismatched (withoutBlanks ['(', 'x', ')', '2']) ∧
      build {} 1 ['(', 'x', ')', '2'] = .error (.parse .mismatchedBracket) := by
  constructor
  · rw [mismatched_iff, not_not]
    decide
  · rw [build_eq_parse rfl]
    exact @parse_trailed_group 1 ['x'] '(' ')' '2' rfl rfl (.inl rfl) rfl

end Reading

end Fluxion
