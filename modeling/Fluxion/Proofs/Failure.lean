import Fluxion.Proofs.Operands
import Fluxion.Proofs.Reading

/-!
# Where reading fails

Reading a text comes to the parts of the text, to their parts, and so on (`Piece`). An error is
reported at one of these pieces: the piece cannot be taken apart, or it is taken for a token or for
the name of a function and is none, or it is a literal with too many digits
(`exists_piece_of_parse_error`). What holds of the parts of a text whenever it holds of the text
thus holds wherever an error is reported.
-/

namespace Fluxion
set_option autoImplicit false
open Fluxion.Text

/-- What reading a text comes to. -/
inductive Piece : List Char → List Char → Prop where
  | whole (text : List Char) : Piece text text
  | part {text a s : List Char} {parts : Split} : split text = .ok parts → a ∈ parts.parts →
      Piece a s → Piece text s

variable {ctx : Context} {dim : Nat} {text s : List Char} {fault : Fault}

namespace Piece

theorem infix_whole (h : Piece text s) : s <:+: text := by
  induction h with
  | whole text => exact List.infix_rfl
  | part cut inside _ ih => exact ih.trans (infix_of_split cut _ inside)

/-- In a balanced text that is not trailed every piece is balanced. -/
theorem balanced (h : Piece text s) (balanced : depthFrom 0 text = some 0)
    (tidy : ¬Trailed text) : depthFrom 0 s = some 0 := by
  induction h with
  | whole text => exact balanced
  | part cut inside _ ih =>
    exact ih (balanced_of_split cut tidy _ inside)
      fun trailed => tidy (trailed.of_infix (infix_of_split cut _ inside))

end Piece

/-- The errors that reading reports at a text. -/
inductive FailsAt (ctx : Context) (dim : Nat) : List Char → Fault → Prop where
  | empty : FailsAt ctx dim [] (.parse .emptyInput)
  | mismatched {s : List Char} : depthFrom 0 s ≠ some 0 →
      FailsAt ctx dim s (.parse .mismatchedBracket)
  | unknown {s : List Char} : ctx.function? s = none →
      FailsAt ctx dim s (.parse (.unknownToken s))
  | longer {s : List Char} {entry : Entry} : ctx.function? s = some entry → dim < entry.arity →
      FailsAt ctx dim s (.parse (.dimensionMismatch s))
  | unreadable {s : List Char} {q : ℚ} : IsLine s q →
      Decimal.maxDigits < s.countP Unicode.isDecimalDigit → FailsAt ctx dim s .tooManyDigits

/-- With few enough digits in the whole text, it is to blame for being no expression. -/
theorem FailsAt.isParse (fails : FailsAt ctx dim s fault) (inside : s <:+: withoutBlanks text)
    (short : text.countP Unicode.isDecimalDigit ≤ Decimal.maxDigits) : fault.isParse = true := by
  cases fails with
  | unreadable line long =>
    have fewer : s.countP Unicode.isDecimalDigit ≤ text.countP Unicode.isDecimalDigit :=
      (inside.sublist.trans List.filter_sublist).countP_le
    omega
  | _ => rfl

theorem failsAt_of_split {cause : ParseError} (h : split s = .error cause) :
    FailsAt ctx dim s (.parse cause) := by
  unfold split at h
  split at h
  · rename_i nothing
    subst nothing
    cases h
    exact .empty
  · split at h
    · contradiction
    · rename_i unbalanced
      cases h
      exact .mismatched fun balanced => unbalanced (decide_eq_true balanced)

theorem failsAt_of_registered (h : registered ctx dim s = .error fault) :
    FailsAt ctx dim s fault := by
  unfold registered at h
  split at h
  · rename_i absent
    cases h
    exact .unknown absent
  · rename_i entry found
    split at h
    · rename_i small
      cases h
      exact .longer found small
    · contradiction

/-- A literal fails to be read for its digits only, and at itself. -/
theorem failsAt_of_read (h : Literal.read s = .error fault) : FailsAt ctx dim s fault := by
  obtain ⟨rfl, long, q, line⟩ := Literal.read_eq_error_iff.1 h
  exact .unreadable line (Nat.not_le.1 (of_decide_eq_false long))

theorem failsAt_of_atom (h : atom ctx dim s = .error fault) : FailsAt ctx dim s fault := by
  unfold atom at h
  split at h
  · contradiction
  · split at h
    · contradiction
    · split at h
      · contradiction
      · split at h
        · rename_i unread
          cases h
          exact failsAt_of_read unread
        · contradiction
        · split at h
          · exact failsAt_of_registered h
          · rename_i absent
            split at h
            · contradiction
            · cases h
              exact .unknown (by simpa using absent)

theorem bind_eq_error {ε α β : Type} {x : Except ε α} {k : α → Except ε β} {e : ε} :
    (x >>= k) = .error e ↔ x = .error e ∨ ∃ a, x = .ok a ∧ k a = .error e := by
  cases x <;> simp [bind, Except.bind]

/-- Whatever makes reading fail is reported at a piece of the text. -/
theorem exists_piece_of_parse_error (h : parse ctx dim text = .error fault) :
    ∃ s, Piece text s ∧ FailsAt ctx dim s fault := by
  induction text using parse.induct ctx dim generalizing fault with
  | case1 text named =>
    rw [parse_named named] at h
    exact ⟨text, .whole text, failsAt_of_atom h⟩
  | case2 text unnamed cause' cut =>
    rw [parse_error (eq_false_of_ne_true unnamed) cut] at h
    cases h
    exact ⟨text, .whole text, failsAt_of_split cut⟩
  | case3 text unnamed token cut =>
    rw [parse_atom (eq_false_of_ne_true unnamed) cut] at h
    exact ⟨token, .part cut (by simp [Split.parts]) (.whole token), failsAt_of_atom h⟩
  | case4 text unnamed a cut ih =>
    rw [parse_negate (eq_false_of_ne_true unnamed) cut, bind_eq_error] at h
    obtain ha | ⟨f, -, done⟩ := h
    · obtain ⟨s, piece, fails⟩ := ih ha
      exact ⟨s, .part cut (by simp [Split.parts]) piece, fails⟩
    · contradiction
  | case5 text unnamed op l r cut ihl ihr =>
    simp only [parse_binary (eq_false_of_ne_true unnamed) cut, bind_eq_error] at h
    obtain hl | ⟨f, -, hr | ⟨g, -, done⟩⟩ := h
    · obtain ⟨s, piece, fails⟩ := ihl hl
      exact ⟨s, .part cut (by simp [Split.parts]) piece, fails⟩
    · obtain ⟨s, piece, fails⟩ := ihr hr
      exact ⟨s, .part cut (by simp [Split.parts]) piece, fails⟩
    · contradiction
  | case6 text unnamed a cut ih =>
    rw [parse_brackets (eq_false_of_ne_true unnamed) cut] at h
    obtain ⟨s, piece, fails⟩ := ih h
    exact ⟨s, .part cut (by simp [Split.parts]) piece, fails⟩
  | case7 text unnamed name a cut nonempty noKind =>
    rw [parse_applied (eq_false_of_ne_true unnamed) cut nonempty noKind] at h
    exact ⟨name, .part cut (by simp [Split.parts]) (.whole name), failsAt_of_registered h⟩
  | case8 text unnamed name a cut nonempty kind found g hg ih =>
    rw [parse_call (eq_false_of_ne_true unnamed) cut nonempty found hg] at h
    contradiction
  -- A function registered under the name stands in for the call, and then it is the one that
  -- fails.
  | case9 text unnamed name a cut nonempty kind found fault' hg shadowed ih =>
    rw [parse_call_error (eq_false_of_ne_true unnamed) cut nonempty found hg, if_pos shadowed] at h
    exact ⟨name, .part cut (by simp [Split.parts]) (.whole name), failsAt_of_registered h⟩
  | case10 text unnamed name a cut nonempty kind found fault' hg plain ih =>
    rw [parse_call_error (eq_false_of_ne_true unnamed) cut nonempty found hg, if_neg plain] at h
    cases h
    obtain ⟨s, piece, fails⟩ := ih hg
    exact ⟨s, .part cut (by simp [Split.parts]) piece, fails⟩

end Fluxion
