import Fluxion.Proofs.Characters

/-!
# Scanning an expression

What a scan meets in a text depends on what stands around the text in two ways only: a run of axis
letters at the front may continue a name before it, and the last character may make a product with
the character after it. `Scanned n s` says that the text `s` is balanced, that a scan of it outside
brackets, after a text that no name ends (`isClear`), meets cuts of looseness at most `n`, and that
what follows is scanned as after a text that `s` alone determines. Texts that are scanned are joined
by signs and by juxtaposition, and enclosed in brackets.
-/

namespace Fluxion.Text
set_option autoImplicit false
open Unicode

variable {before rest a b s : List Char} {c : Char} {n : Nat}

section Context

/-- Whether an axis letter after the reversed text is a variable. -/
def isClear (before : List Char) : Bool :=
  match before.dropWhile isAxisLetter with
  | [] => true
  | d :: _ => !isLetter d

/-- An axis letter is a variable unless it belongs to a name before it. -/
theorem isFactor_eq (before : List Char) (c : Char) :
    isFactor before c = (isAxisLetter c && isClear before) := rfl

/-- No name goes on behind a character that is no letter. -/
theorem isClear_cons_of_not_letter (h : isLetter c = false) : isClear (c :: before) = true := by
  have other : isAxisLetter c = false := by
    rw [← Bool.not_eq_true]
    intro axis
    rw [isLetter_of_isAxisLetter axis] at h
    contradiction
  simp [isClear, other, h]

/-- A run of axis letters belongs to whatever stands before it. -/
theorem isClear_cons_of_isAxisLetter (h : isAxisLetter c = true) :
    isClear (c :: before) = isClear before := by
  simp [isClear, h]

/-- Whether a text ends in a digit, a closing bracket or a variable. -/
def endsOperand (text : List Char) : Bool :=
  match text.getLast? with
  | some c => isDigit c || isClosing c || isAxisLetter c
  | none => false

/-- How a text ends is decided by its last part. -/
theorem endsOperand_append (h : b ≠ []) : endsOperand (a ++ b) = endsOperand b := by
  unfold endsOperand
  rw [List.getLast?_append, List.getLast?_eq_some_getLast h]
  rfl

theorem endsOperand_cons (h : s ≠ []) : endsOperand (c :: s) = endsOperand s :=
  endsOperand_append (a := [c]) h

end Context

section Steps

variable {d k : Nat}

theorem not_isOpening_of_isClosing (h : isClosing c = true) : isOpening c = false := by
  rcases isClosing_iff.1 h with rfl | rfl | rfl <;> rfl

theorem not_isClosing_of_isOpening (h : isOpening c = true) : isClosing c = false := by
  rcases isOpening_iff.1 h with rfl | rfl | rfl <;> rfl

/-- What the first character does to the depth. -/
theorem depthFrom_cons_eq_some (h : depthFrom d (c :: s) = some k) :
    (isOpening c = true ∧ depthFrom (d + 1) s = some k) ∨
    (isClosing c = true ∧ ∃ e, d = e + 1 ∧ depthFrom e s = some k) ∨
    (isOpening c = false ∧ isClosing c = false ∧ depthFrom d s = some k) := by
  unfold depthFrom at h
  split at h
  · exact .inl ⟨by assumption, h⟩
  · rename_i notOpening
    split at h
    · cases d with
      | zero => contradiction
      | succ e => exact .inr (.inl ⟨by assumption, e, rfl, h⟩)
    · rename_i notClosing
      exact .inr (.inr ⟨by simpa using notOpening, by simpa using notClosing, h⟩)

/-- An opening bracket goes one deeper. -/
theorem depthFrom_opening (h : isOpening c = true) :
    depthFrom d (c :: s) = depthFrom (d + 1) s := by
  simp [depthFrom, h]

theorem depthFrom_closing (h : isClosing c = true) :
    depthFrom (d + 1) (c :: s) = depthFrom d s := by
  simp [depthFrom, not_isOpening_of_isClosing h, h]

theorem depthFrom_other (opening : isOpening c = false) (closing : isClosing c = false) :
    depthFrom d (c :: s) = depthFrom d s := by
  simp [depthFrom, opening, closing]

/-- Before the last character, the first bracket must not be closed. -/
theorem staysOpen_cons (nonempty : s ≠ []) (d : Nat) :
    staysOpen d (c :: s) =
      if isOpening c then staysOpen (d + 1) s
      else if isClosing c then decide (1 < d) && staysOpen (d - 1) s
      else staysOpen d s := by
  obtain ⟨x, t, rfl⟩ := List.exists_cons_of_ne_nil nonempty
  rfl

end Steps

section Cuts

/-- The product without a sign between the reversed text and the text after it, if the first ends
an operand and the second starts one. -/
def juncture (behind : List Char) (ends : Bool) : List Char → List Cut
  | [] => []
  | d :: rest => if ends && startsAtom d then [⟨.junction, behind, d :: rest⟩] else []

/-- Behind what is no operand there is no product. -/
theorem juncture_false (behind rest : List Char) : juncture behind false rest = [] := by
  cases rest <;> rfl

/-- Before what starts no operand there is no product. -/
theorem juncture_cons_of_not_starts {behind : List Char} {ends : Bool} (h : startsAtom c = false) :
    juncture behind ends (c :: rest) = [] := by
  simp [juncture, h]

/-- Behind a character that is no mark there may be a product. -/
theorem cutsFrom_plain (h : Plain c) (before rest : List Char) :
    cutsFrom 0 before (c :: rest) =
      juncture (c :: before) (endsAtom before c) rest ++ cutsFrom 0 (c :: before) rest := by
  simp only [cutsFrom, h.opening, h.closing, cutAt?, h.sign]
  cases rest with
  | nil => rfl
  | cons d rest =>
    simp only [juncture]
    cases endsAtom before c && startsAtom d <;> rfl

/-- Outside brackets every sign is a cut, and no product stands behind it. -/
theorem cutsFrom_sign (op : Op) (before rest : List Char) :
    cutsFrom 0 before (op.sign :: rest) =
      ⟨.sign op, before, rest⟩ :: cutsFrom 0 (op.sign :: before) rest := by
  cases op <;> rfl

/-- An opening bracket outside all others is a cut, and from there on the scan is inside. -/
theorem cutsFrom_opening (h : isOpening c = true) (before rest : List Char) :
    cutsFrom 0 before (c :: rest) =
      ⟨.call, before, rest⟩ :: cutsFrom 1 (c :: before) rest := by
  simp [cutsFrom, cutAt?, h, not_isClosing_of_isOpening h]

/-- Behind the bracket that closes the outermost one there may be a product. -/
theorem cutsFrom_closing (h : isClosing c = true) (before rest : List Char) :
    cutsFrom 1 before (c :: rest) =
      juncture (c :: before) true rest ++ cutsFrom 0 (c :: before) rest := by
  have opening := not_isOpening_of_isClosing h
  have sign : Op.ofSign? c = none := by
    rcases isClosing_iff.1 h with rfl | rfl | rfl <;> rfl
  have ends : endsAtom before c = true := by simp [endsAtom, h]
  simp only [cutsFrom, h, opening, cutAt?, sign, ends]
  cases rest with
  | nil => rfl
  | cons d rest =>
    simp only [juncture]
    cases startsAtom d <;> rfl

/-- Nothing is cut inside brackets. -/
theorem cutsFrom_inside {m k : Nat} (h : depthFrom m s = some k) (before rest : List Char) :
    cutsFrom (m + 1) before (s ++ rest) = cutsFrom (k + 1) (s.reverse ++ before) rest := by
  induction s generalizing m before with
  | nil =>
    cases h
    rfl
  | cons c s ih =>
    rw [List.reverse_cons, List.append_assoc, List.cons_append]
    obtain ⟨opening, inside⟩ | ⟨closing, e, rfl, inside⟩ | ⟨opening, closing, inside⟩ :=
      depthFrom_cons_eq_some h
    · simpa [cutsFrom, opening, not_isClosing_of_isOpening opening] using ih inside (c :: before)
    · simpa [cutsFrom, closing, not_isOpening_of_isClosing closing] using ih inside (c :: before)
    · simpa [cutsFrom, closing, opening] using ih inside (c :: before)

end Cuts

section Depth

/-- A text without brackets is balanced. -/
theorem depthFrom_plain (h : ∀ c ∈ s, Plain c) (d : Nat) : depthFrom d s = some d := by
  induction s with
  | nil => rfl
  | cons c s ih =>
    have plain := h c (List.mem_cons_self ..)
    rw [depthFrom_other plain.opening plain.closing]
    exact ih fun c hc => h c (List.mem_cons_of_mem _ hc)

/-- A balanced text is balanced inside brackets. -/
theorem depthFrom_add {d k : Nat} (h : depthFrom d s = some k) (m : Nat) :
    depthFrom (d + m) s = some (k + m) := by
  induction s generalizing d with
  | nil =>
    cases h
    rfl
  | cons c s ih =>
    obtain ⟨opening, inside⟩ | ⟨closing, e, rfl, inside⟩ | ⟨opening, closing, inside⟩ :=
      depthFrom_cons_eq_some h
    · rw [depthFrom_opening opening, Nat.add_right_comm]
      exact ih inside
    · rw [Nat.add_right_comm, depthFrom_closing closing]
      exact ih inside
    · rw [depthFrom_other opening closing]
      exact ih inside

theorem depthFrom_sign (op : Op) (d : Nat) (s : List Char) :
    depthFrom d (op.sign :: s) = depthFrom d s := by
  cases op <;> rfl

/-- A balanced text is balanced in brackets as well. -/
theorem depthFrom_brackets {o : Char} (ho : isOpening o = true) (hc : isClosing c = true)
    (h : depthFrom 0 s = some 0) : depthFrom 0 (o :: (s ++ [c])) = some 0 := by
  rw [depthFrom_opening ho, depthFrom_append, depthFrom_add h 1]
  exact depthFrom_closing hc

/-- The brackets around the front of a text do not enclose the whole. -/
theorem staysOpen_append {d : Nat} (h : depthFrom (d + 1) a = some 0) (hb : b ≠ []) :
    staysOpen (d + 1) (a ++ b) = false := by
  induction a generalizing d with
  | nil => cases h
  | cons c a ih =>
    rw [List.cons_append, staysOpen_cons (by simp [hb])]
    obtain ⟨opening, inside⟩ | ⟨closing, e, same, inside⟩ | ⟨opening, closing, inside⟩ :=
      depthFrom_cons_eq_some h
    · rw [if_pos opening]
      exact ih inside
    · obtain rfl := Nat.succ.inj same
      rw [if_neg (by simp [not_isOpening_of_isClosing closing]), if_pos closing]
      cases d with
      | zero => rfl
      | succ d => simpa using ih inside
    · simpa [opening, closing] using ih inside

/-- Two texts side by side have no bracket around both. -/
theorem unwrap_append (balanced : depthFrom 0 a = some 0) (ha : a ≠ []) (hb : b ≠ []) :
    unwrap (a ++ b) = a ++ b := by
  cases a with
  | nil => exact absurd rfl ha
  | cons c a =>
    rw [List.cons_append, unwrap]
    split
    · rename_i enclosed
      cases opening : isOpening c with
      | false => simp [opening] at enclosed
      | true =>
        rw [depthFrom_opening opening] at balanced
        simp [opening, staysOpen_append balanced hb] at enclosed
    · rfl

/-- Nothing is taken off a text that starts with no bracket. -/
theorem unwrap_of_not_opening (h : isOpening c = false) (s : List Char) :
    unwrap (c :: s) = c :: s := by
  simp [unwrap, h]

/-- The bracket around a balanced text stays open up to its end. -/
theorem staysOpen_inside {d k : Nat} (h : depthFrom d s = some k) :
    staysOpen (d + 1) (s ++ [c]) = true := by
  induction s generalizing d with
  | nil => rfl
  | cons x s ih =>
    rw [List.cons_append, staysOpen_cons (by simp)]
    obtain ⟨opening, inside⟩ | ⟨closing, e, rfl, inside⟩ | ⟨opening, closing, inside⟩ :=
      depthFrom_cons_eq_some h
    · rw [if_pos opening]
      exact ih inside
    · simpa [closing, not_isOpening_of_isClosing closing] using ih inside
    · simpa [opening, closing] using ih inside

/-- The brackets around a balanced text come off. -/
theorem unwrap_brackets {o : Char} (ho : isOpening o = true)
    (balanced : depthFrom 0 s = some 0) : unwrap (o :: (s ++ [c])) = s := by
  simp [unwrap, ho, staysOpen_inside balanced]

end Depth

/-- What a scan meets in a text, whatever stands around it. -/
structure Scanned (n : Nat) (s : List Char) : Prop where
  nonempty : s ≠ []
  balanced : depthFrom 0 s = some 0
  clear : ∀ {before}, isClear before = true → endsOperand s = true →
    isClear (s.reverse ++ before) = true
  /-- The cuts inside the text, then the one at its end, then those after it. -/
  scan : ∀ before rest, isClear before = true →
    ∃ met, cutsFrom 0 before (s ++ rest) =
        met ++ juncture (s.reverse ++ before) (endsOperand s) rest ++
          cutsFrom 0 (s.reverse ++ before) rest ∧
      ∀ cut ∈ met, cut.mark.looseness ≤ n

namespace Scanned

/-- A looser bound holds as well. -/
theorem mono {m : Nat} (h : Scanned n s) (le : n ≤ m) : Scanned m s where
  nonempty := h.nonempty
  balanced := h.balanced
  clear := h.clear
  scan before rest clear := by
    obtain ⟨met, cuts, bound⟩ := h.scan before rest clear
    refine ⟨met, cuts, ?_⟩
    intro cut hc
    have tight := bound cut hc
    omega

/-- The cuts of a text that nothing follows. -/
theorem cuts_le (h : Scanned n s) : ∀ cut ∈ cuts s, cut.mark.looseness ≤ n := by
  obtain ⟨met, cuts, bound⟩ := h.scan [] [] rfl
  rw [List.append_nil] at cuts
  rw [Text.cuts, cuts]
  simpa [juncture, cutsFrom] using bound

end Scanned

section Joined

variable {m : Nat}

theorem isLetter_sign (op : Op) : isLetter op.sign = false := by
  cases op <;> decide

theorem startsAtom_sign (op : Op) : startsAtom op.sign = false := by
  cases op <;> decide

/-- A sign between two texts does not change how the second one ends. -/
theorem endsOperand_sign (op : Op) (hb : b ≠ []) :
    endsOperand (a ++ op.sign :: b) = endsOperand b := by
  rw [List.append_cons, endsOperand_append hb]

/-- The cuts of a text that starts with a sign. -/
theorem scan_after_sign (hb : Scanned n b) (op : Op) (before rest : List Char) :
    ∃ right, cutsFrom 0 before (op.sign :: (b ++ rest)) =
        ⟨.sign op, before, b ++ rest⟩ :: right ++
          juncture (b.reverse ++ op.sign :: before) (endsOperand b) rest ++
          cutsFrom 0 (b.reverse ++ op.sign :: before) rest ∧
      ∀ cut ∈ right, cut.mark.looseness ≤ n := by
  obtain ⟨right, cuts, bound⟩ :=
    hb.scan (op.sign :: before) rest (isClear_cons_of_not_letter (isLetter_sign op))
  refine ⟨right, ?_, bound⟩
  rw [cutsFrom_sign, cuts]
  rfl

/-- The cuts of two texts with a sign between them. -/
theorem scan_sign (ha : Scanned m a) (hb : Scanned n b) (op : Op) (before rest : List Char)
    (clear : isClear before = true) :
    ∃ left right, cutsFrom 0 before (a ++ op.sign :: b ++ rest) =
        left ++ ⟨.sign op, a.reverse ++ before, b ++ rest⟩ :: right ++
          juncture ((a ++ op.sign :: b).reverse ++ before) (endsOperand b) rest ++
          cutsFrom 0 ((a ++ op.sign :: b).reverse ++ before) rest ∧
      (∀ cut ∈ left, cut.mark.looseness ≤ m) ∧ ∀ cut ∈ right, cut.mark.looseness ≤ n := by
  obtain ⟨left, cutsLeft, boundLeft⟩ := ha.scan before (op.sign :: (b ++ rest)) clear
  obtain ⟨right, cutsRight, boundRight⟩ := scan_after_sign hb op (a.reverse ++ before) rest
  refine ⟨left, right, ?_, boundLeft, boundRight⟩
  have split : (a ++ op.sign :: b).reverse ++ before =
      b.reverse ++ op.sign :: (a.reverse ++ before) := by simp
  rw [split, List.append_assoc, List.cons_append, cutsLeft,
    juncture_cons_of_not_starts (startsAtom_sign op), cutsRight]
  simp

/-- The cuts of two texts that make a product without a sign. -/
theorem scan_juxtaposed (ha : Scanned m a) (hb : Scanned n b) (ends : endsOperand a = true)
    (starts : ∃ d t, b = d :: t ∧ startsAtom d = true) (before rest : List Char)
    (clear : isClear before = true) :
    ∃ left right, cutsFrom 0 before (a ++ b ++ rest) =
        left ++ ⟨.junction, a.reverse ++ before, b ++ rest⟩ :: right ++
          juncture ((a ++ b).reverse ++ before) (endsOperand b) rest ++
          cutsFrom 0 ((a ++ b).reverse ++ before) rest ∧
      (∀ cut ∈ left, cut.mark.looseness ≤ m) ∧ ∀ cut ∈ right, cut.mark.looseness ≤ n := by
  obtain ⟨left, cutsLeft, boundLeft⟩ := ha.scan before (b ++ rest) clear
  obtain ⟨right, cutsRight, boundRight⟩ :=
    hb.scan (a.reverse ++ before) rest (ha.clear clear ends)
  refine ⟨left, right, ?_, boundLeft, boundRight⟩
  have junction : juncture (a.reverse ++ before) (endsOperand a) (b ++ rest) =
      [⟨.junction, a.reverse ++ before, b ++ rest⟩] := by
    obtain ⟨d, t, rfl, starts⟩ := starts
    simp [juncture, ends, starts]
  rw [List.append_assoc, cutsLeft, junction, cutsRight]
  simp

/-- The cuts of a text in brackets. -/
theorem scan_brackets {o : Char} (ho : isOpening o = true) (hc : isClosing c = true)
    (balanced : depthFrom 0 s = some 0) (before rest : List Char) :
    cutsFrom 0 before (o :: (s ++ [c]) ++ rest) =
      ⟨.call, before, s ++ c :: rest⟩ ::
        juncture ((o :: (s ++ [c])).reverse ++ before) true rest ++
        cutsFrom 0 ((o :: (s ++ [c])).reverse ++ before) rest := by
  have split : (o :: (s ++ [c])).reverse ++ before = c :: (s.reverse ++ o :: before) := by simp
  have whole : s ++ [c] ++ rest = s ++ c :: rest := by simp
  rw [split, List.cons_append, whole, cutsFrom_opening ho, cutsFrom_inside balanced,
    cutsFrom_closing hc]
  rfl

/-- No cut is made among the letters of a name. -/
theorem scan_name (h : ∀ c ∈ s, NameLetter c) (before rest : List Char) :
    cutsFrom 0 before (s ++ rest) = cutsFrom 0 (s.reverse ++ before) rest := by
  induction s generalizing before with
  | nil => rfl
  | cons c s ih =>
    have name := h c (List.mem_cons_self ..)
    have plain := plain_of_isLetter name.letter
    have ends : endsAtom before c = false := by
      simp [endsAtom, isFactor_eq, isDigit_of_isLetter name.letter, plain.closing, name.other]
    rw [List.cons_append, cutsFrom_plain plain, ends, juncture_false, List.nil_append,
      ih (fun c hc => h c (List.mem_cons_of_mem _ hc))]
    simp

theorem startsAtom_of_isDigit (h : isDigit c = true) : startsAtom c = false := by
  simp [startsAtom, h]

/-- No cut is made in a run of digits but at its end. -/
theorem scan_digits (h : ∀ c ∈ s, isDigit c = true) (nonempty : s ≠ [])
    (before rest : List Char) :
    cutsFrom 0 before (s ++ rest) =
      juncture (s.reverse ++ before) true rest ++ cutsFrom 0 (s.reverse ++ before) rest := by
  induction s generalizing before with
  | nil => exact absurd rfl nonempty
  | cons c s ih =>
    have digit := h c (List.mem_cons_self ..)
    have ends : endsAtom before c = true := by simp [endsAtom, digit]
    rw [List.cons_append, cutsFrom_plain (plain_of_isDigit digit), ends]
    cases s with
    | nil => rfl
    | cons d s =>
      have next := startsAtom_of_isDigit (h d (.tail _ (List.mem_cons_self ..)))
      rw [List.cons_append, juncture_cons_of_not_starts next, List.nil_append, ← List.cons_append,
        ih (fun c hc => h c (List.mem_cons_of_mem _ hc)) (by simp)]
      simp

end Joined

section Combined

variable {m : Nat}

/-- A name does not end an operand, so a product after it needs a sign. -/
theorem endsOperand_name (h : ∀ c ∈ s, NameLetter c) : endsOperand s = false := by
  unfold endsOperand
  split
  · rename_i c last
    have name := h c (List.mem_of_getLast? last)
    simp [isDigit_of_isLetter name.letter, (plain_of_isLetter name.letter).closing, name.other]
  · rfl

/-- A name is met as a whole: no letter in it is a variable. -/
theorem scanned_name (h : ∀ c ∈ s, NameLetter c) (nonempty : s ≠ []) : Scanned 0 s where
  nonempty := nonempty
  balanced := depthFrom_plain (fun c hc => plain_of_isLetter (h c hc).letter) 0
  clear _ ends := by
    rw [endsOperand_name h] at ends
    contradiction
  scan before rest _ := by
    refine ⟨[], ?_, by simp⟩
    rw [scan_name h, endsOperand_name h, juncture_false]
    rfl

/-- After a text that ends in no letter, an axis letter is a variable. -/
theorem isClear_of_last (last : s.getLast? = some c) (h : isLetter c = false) :
    isClear (s.reverse ++ before) = true := by
  obtain ⟨front, rfl⟩ := List.getLast?_eq_some_iff.1 last
  rw [List.reverse_append]
  exact isClear_cons_of_not_letter h

/-- The last character of a run of digits is a digit. -/
theorem getLast?_digits (h : ∀ c ∈ s, isDigit c = true) (nonempty : s ≠ []) :
    ∃ c, s.getLast? = some c ∧ isDigit c = true :=
  ⟨_, List.getLast?_eq_some_getLast nonempty, h _ (List.getLast_mem nonempty)⟩

theorem endsOperand_digits (h : ∀ c ∈ s, isDigit c = true) (nonempty : s ≠ []) :
    endsOperand s = true := by
  obtain ⟨c, last, digit⟩ := getLast?_digits h nonempty
  simp [endsOperand, last, digit]

theorem scanned_digits (h : ∀ c ∈ s, isDigit c = true) (nonempty : s ≠ []) : Scanned 0 s where
  nonempty := nonempty
  balanced := depthFrom_plain (fun c hc => plain_of_isDigit (h c hc)) 0
  clear _ _ := by
    obtain ⟨c, last, digit⟩ := getLast?_digits h nonempty
    exact isClear_of_last last (isLetter_of_isDigit digit)
  scan before rest _ := by
    refine ⟨[], ?_, by simp⟩
    rw [scan_digits h nonempty, endsOperand_digits h nonempty]
    rfl

/-- A decimal is scanned like a run of digits. -/
theorem scanned_decimal (ha : ∀ c ∈ a, isDigit c = true) (hb : ∀ c ∈ b, isDigit c = true)
    (nonemptyA : a ≠ []) (nonemptyB : b ≠ []) : Scanned 0 (a ++ '.' :: b) where
  nonempty := by simp
  balanced := by
    refine depthFrom_plain ?_ 0
    intro c hc
    rcases List.mem_append.1 hc with hc | hc
    · exact plain_of_isDigit (ha c hc)
    · rcases List.mem_cons.1 hc with rfl | hc
      · exact plain_point
      · exact plain_of_isDigit (hb c hc)
  clear _ _ := by
    obtain ⟨c, last, digit⟩ := getLast?_digits hb nonemptyB
    refine isClear_of_last ?_ (isLetter_of_isDigit digit)
    rw [List.append_cons, List.getLast?_append, last]
    rfl
  scan before rest _ := by
    have whole : a ++ '.' :: b ++ rest = a ++ ('.' :: (b ++ rest)) := by simp
    have split : (a ++ '.' :: b).reverse ++ before = b.reverse ++ '.' :: (a.reverse ++ before) := by
      simp
    have ends : endsAtom (a.reverse ++ before) '.' = false := by
      simp only [endsAtom, isFactor_eq, show isAxisLetter '.' = false by decide, Bool.false_and]
      decide
    have operand : endsOperand (a ++ '.' :: b) = true := by
      rw [List.append_cons, endsOperand_append nonemptyB, endsOperand_digits hb nonemptyB]
    refine ⟨[], ?_, by simp⟩
    rw [whole, split, scan_digits ha nonemptyA, juncture_cons_of_not_starts (by decide),
      cutsFrom_plain plain_point, ends, juncture_false, scan_digits hb nonemptyB, operand]
    rfl

theorem scanned_variable (h : isAxisLetter c = true) : Scanned 0 [c] where
  nonempty := by simp
  balanced := by
    refine depthFrom_plain ?_ 0
    intro d hd
    obtain rfl := List.mem_singleton.1 hd
    exact plain_of_isLetter (isLetter_of_isAxisLetter h)
  clear clear _ := by
    rw [List.reverse_singleton, List.singleton_append, isClear_cons_of_isAxisLetter h, clear]
  scan before rest clear := by
    refine ⟨[], ?_, by simp⟩
    have ends : endsAtom before c = true := by simp [endsAtom, isFactor_eq, h, clear]
    have operand : endsOperand [c] = true := by simp [endsOperand, h]
    rw [List.singleton_append, cutsFrom_plain (plain_of_isLetter (isLetter_of_isAxisLetter h)),
      ends, operand]
    rfl

theorem endsOperand_brackets {o : Char} (hc : isClosing c = true) :
    endsOperand (o :: (s ++ [c])) = true := by
  rw [endsOperand_cons (by simp), endsOperand_append (by simp)]
  simp [endsOperand, hc]

/-- A text in brackets, after the name that it is the argument of. -/
theorem scanned_call {o : Char} (ha : ∀ c ∈ a, NameLetter c) (ho : isOpening o = true)
    (hc : isClosing c = true) (balanced : depthFrom 0 s = some 0) :
    Scanned 1 (a ++ o :: (s ++ [c])) where
  nonempty := by simp
  balanced := by
    rw [depthFrom_append, depthFrom_plain fun c hc => plain_of_isLetter (ha c hc).letter]
    exact depthFrom_brackets ho hc balanced
  clear _ _ := by
    have last : (a ++ o :: (s ++ [c])).getLast? = some c := by
      rw [← List.cons_append, ← List.append_assoc]
      exact List.getLast?_concat
    refine isClear_of_last last ?_
    rcases isClosing_iff.1 hc with rfl | rfl | rfl <;> decide
  scan before rest _ := by
    refine ⟨[⟨.call, a.reverse ++ before, s ++ c :: rest⟩], ?_, by simp [Mark.looseness]⟩
    rw [List.append_assoc, scan_name ha, scan_brackets ho hc balanced,
      endsOperand_append (by simp), endsOperand_brackets hc, List.reverse_append]
    simp

/-- Two texts with a sign between them: the sign is one cut more. -/
theorem Scanned.sign (ha : Scanned n a) (hb : Scanned n b) {op : Op} (le : looseness op ≤ n) :
    Scanned n (a ++ op.sign :: b) where
  nonempty := by simp
  balanced := by
    rw [depthFrom_append, ha.balanced]
    exact (depthFrom_sign op 0 b).trans hb.balanced
  clear {before} _ ends := by
    have split : (a ++ op.sign :: b).reverse ++ before =
        b.reverse ++ op.sign :: (a.reverse ++ before) := by simp
    rw [endsOperand_sign op hb.nonempty] at ends
    rw [split]
    exact hb.clear (isClear_cons_of_not_letter (isLetter_sign op)) ends
  scan before rest clear := by
    obtain ⟨left, right, cuts, boundLeft, boundRight⟩ := scan_sign ha hb op before rest clear
    refine ⟨_, by rw [endsOperand_sign op hb.nonempty]; exact cuts, fun cut hc => ?_⟩
    rcases List.mem_append.1 hc with hc | hc
    · exact boundLeft cut hc
    · rcases List.mem_cons.1 hc with rfl | hc
      · exact le
      · exact boundRight cut hc

/-- Two texts side by side: the product between them is one cut more. -/
theorem Scanned.juxtaposed (ha : Scanned n a) (hb : Scanned n b) (ends : endsOperand a = true)
    (starts : ∃ d t, b = d :: t ∧ startsAtom d = true) (le : looseness .mul ≤ n) :
    Scanned n (a ++ b) where
  nonempty := by simp [hb.nonempty]
  balanced := by
    rw [depthFrom_append, ha.balanced]
    exact hb.balanced
  clear {before} clear endsB := by
    rw [endsOperand_append hb.nonempty] at endsB
    rw [List.reverse_append, List.append_assoc]
    exact hb.clear (ha.clear clear ends) endsB
  scan before rest clear := by
    obtain ⟨left, right, cuts, boundLeft, boundRight⟩ :=
      scan_juxtaposed ha hb ends starts before rest clear
    refine ⟨_, by rw [endsOperand_append hb.nonempty]; exact cuts, fun cut hc => ?_⟩
    rcases List.mem_append.1 hc with hc | hc
    · exact boundLeft cut hc
    · rcases List.mem_cons.1 hc with rfl | hc
      · exact le
      · exact boundRight cut hc

/-- A text with a sign in front: the sign is one cut more. -/
theorem Scanned.negated (h : Scanned n s) (le : looseness .sub ≤ n) : Scanned n ('-' :: s) where
  nonempty := by simp
  balanced := h.balanced
  clear {before} _ ends := by
    rw [endsOperand_cons h.nonempty] at ends
    rw [List.reverse_cons, List.append_assoc]
    exact h.clear (isClear_cons_of_not_letter (isLetter_sign .sub)) ends
  scan before rest _ := by
    obtain ⟨right, cuts, bound⟩ := scan_after_sign h .sub before rest
    refine ⟨⟨.sign .sub, before, s ++ rest⟩ :: right, ?_, fun cut hc => ?_⟩
    · rw [endsOperand_cons h.nonempty, List.reverse_cons, List.append_assoc (s.reverse)]
      exact cuts
    · rcases List.mem_cons.1 hc with rfl | hc
      · exact le
      · exact bound cut hc

end Combined

end Fluxion.Text
