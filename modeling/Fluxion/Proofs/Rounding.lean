import Fluxion.Proofs.Scanning

/-!
# Round brackets

Taking a text apart does not tell the shapes of brackets apart. `rounded` gives every bracket of a
text the round shape, and each step commutes with it: the classes of characters, the depth, the
scan for cuts, and so the split (`split_rounded`). A look-up that finds no text with brackets does
not see rounding at all (`lookup_rounded`).
-/

namespace Fluxion.Text
set_option autoImplicit false

/-- The round bracket of the same side; other characters stay. -/
def roundBracket (c : Char) : Char :=
  if isOpening c then '(' else if isClosing c then ')' else c

/-- The text with round brackets only. -/
def rounded (text : List Char) : List Char := text.map roundBracket

variable {s t text before rest : List Char} {c d : Char} {cut : Cut}

section Characters

/-- Every opening bracket becomes the round one. -/
theorem roundBracket_opening (h : isOpening c = true) : roundBracket c = '(' := if_pos h

theorem roundBracket_closing (h : isClosing c = true) : roundBracket c = ')' := by
  rw [roundBracket, not_isOpening_of_isClosing h, if_neg Bool.false_ne_true, if_pos h]

theorem roundBracket_other (opening : isOpening c = false) (closing : isClosing c = false) :
    roundBracket c = c := by
  simp [roundBracket, opening, closing]

/-- What does not tell the shapes of brackets apart does not see rounding. -/
theorem apply_roundBracket {α : Type} (φ : Char → α) (square : φ '[' = φ '(')
    (curly : φ '{' = φ '(') (square' : φ ']' = φ ')') (curly' : φ '}' = φ ')') (c : Char) :
    φ (roundBracket c) = φ c := by
  cases opening : isOpening c with
  | true =>
    rw [roundBracket_opening opening]
    rcases isOpening_iff.1 opening with rfl | rfl | rfl
    · rfl
    · exact square.symm
    · exact curly.symm
  | false =>
    cases closing : isClosing c with
    | true =>
      rw [roundBracket_closing closing]
      rcases isClosing_iff.1 closing with rfl | rfl | rfl
      · rfl
      · exact square'.symm
      · exact curly'.symm
    | false => rw [roundBracket_other opening closing]

@[simp] theorem isOpening_roundBracket (c : Char) : isOpening (roundBracket c) = isOpening c :=
  apply_roundBracket _ rfl rfl rfl rfl c

@[simp] theorem isClosing_roundBracket (c : Char) : isClosing (roundBracket c) = isClosing c :=
  apply_roundBracket _ rfl rfl rfl rfl c

@[simp] theorem ofSign?_roundBracket (c : Char) : Op.ofSign? (roundBracket c) = Op.ofSign? c :=
  apply_roundBracket _ rfl rfl rfl rfl c

@[simp] theorem ofLetter?_roundBracket (c : Char) :
    Axis.ofLetter? (roundBracket c) = Axis.ofLetter? c :=
  apply_roundBracket _ rfl rfl rfl rfl c

@[simp] theorem isAxisLetter_roundBracket (c : Char) :
    isAxisLetter (roundBracket c) = isAxisLetter c := by
  rw [isAxisLetter, isAxisLetter, ofLetter?_roundBracket]

@[simp] theorem isLetter_roundBracket (c : Char) :
    Unicode.isLetter (roundBracket c) = Unicode.isLetter c :=
  apply_roundBracket _ (by decide) (by decide) (by decide) (by decide) c

@[simp] theorem isDigit_roundBracket (c : Char) :
    Unicode.isDigit (roundBracket c) = Unicode.isDigit c :=
  apply_roundBracket _ (by decide) (by decide) (by decide) (by decide) c

@[simp] theorem decimalValue?_roundBracket (c : Char) :
    Unicode.decimalValue? (roundBracket c) = Unicode.decimalValue? c :=
  apply_roundBracket _ (by decide) (by decide) (by decide) (by decide) c

@[simp] theorem startsAtom_roundBracket (c : Char) : startsAtom (roundBracket c) = startsAtom c :=
  apply_roundBracket _ (by decide) (by decide) (by decide) (by decide) c

end Characters

section Rounding

@[simp] theorem rounded_nil : rounded [] = [] := rfl

@[simp] theorem rounded_cons (c : Char) (s : List Char) :
    rounded (c :: s) = roundBracket c :: rounded s := rfl

@[simp] theorem rounded_eq_nil_iff : rounded s = [] ↔ s = [] := List.map_eq_nil_iff

theorem isEmpty_rounded (s : List Char) : (rounded s).isEmpty = s.isEmpty := by
  cases s <;> rfl

theorem rounded_reverse (s : List Char) : rounded s.reverse = (rounded s).reverse :=
  List.map_reverse ..

theorem rounded_dropLast (s : List Char) : rounded s.dropLast = (rounded s).dropLast :=
  List.map_dropLast ..

/-- A text without brackets. -/
def NoBracket (s : List Char) : Prop := ∀ c ∈ s, isOpening c = false ∧ isClosing c = false

/-- Plain characters are no brackets. -/
theorem noBracket_of_plain (h : ∀ c ∈ s, Plain c) : NoBracket s :=
  fun c hc => ⟨(h c hc).opening, (h c hc).closing⟩

/-- A text without brackets is its own rounded text. -/
theorem rounded_eq_self (h : NoBracket s) : rounded s = s := by
  have stays : s.map roundBracket = s.map id :=
    List.map_congr_left fun c hc => roundBracket_other (h c hc).1 (h c hc).2
  rw [rounded, stays, List.map_id]

/-- Rounding neither makes nor removes brackets. -/
theorem noBracket_rounded : NoBracket (rounded s) ↔ NoBracket s := by
  simp [NoBracket, rounded]

/-- So a text is rounded to one without brackets only if it is that text. -/
theorem rounded_eq_iff (h : NoBracket t) : rounded s = t ↔ s = t := by
  constructor
  · rintro rfl
    exact (rounded_eq_self (noBracket_rounded.1 h)).symm
  · rintro rfl
    exact rounded_eq_self h

theorem roundBracket_eq_iff (opening : isOpening d = false) (closing : isClosing d = false) :
    roundBracket c = d ↔ c = d := by
  have bare : NoBracket [d] := by
    intro x hx
    obtain rfl := List.mem_singleton.1 hx
    exact ⟨opening, closing⟩
  simpa using @rounded_eq_iff [c] [d] bare

/-- A look-up that finds no text with brackets does not see rounding. -/
theorem lookup_rounded {α : Type} {look : List Char → Option α}
    (bare : ∀ name a, look name = some a → NoBracket name) (s : List Char) :
    look (rounded s) = look s := by
  by_cases h : NoBracket s
  · rw [rounded_eq_self h]
  · have absent : look s = none := by
      rw [Option.eq_none_iff_forall_ne_some]
      exact fun a found => h (bare s a found)
    have absent' : look (rounded s) = none := by
      rw [Option.eq_none_iff_forall_ne_some]
      exact fun a found => h (noBracket_rounded.1 (bare _ a found))
    rw [absent, absent']

end Rounding

section Scan

/-- The depth does not depend on the shape of brackets. -/
theorem depthFrom_rounded (d : Nat) (s : List Char) : depthFrom d (rounded s) = depthFrom d s := by
  induction s generalizing d with
  | nil => rfl
  | cons c s ih => simp only [rounded_cons, depthFrom, isOpening_roundBracket,
      isClosing_roundBracket, ih]

theorem staysOpen_rounded (d : Nat) (s : List Char) : staysOpen d (rounded s) = staysOpen d s := by
  induction s generalizing d with
  | nil => rfl
  | cons c s ih =>
    cases s with
    | nil => rfl
    | cons x s =>
      rw [rounded_cons, staysOpen_cons (by simp), staysOpen_cons (by simp), isOpening_roundBracket,
        isClosing_roundBracket, ih, ih, ih]

/-- The same outer brackets come off a rounded text. -/
theorem unwrap_rounded (s : List Char) : unwrap (rounded s) = rounded (unwrap s) := by
  cases s with
  | nil => rfl
  | cons c s =>
    simp only [rounded_cons, unwrap, isOpening_roundBracket, isEmpty_rounded, staysOpen_rounded]
    split
    · exact (rounded_dropLast s).symm
    · rfl

/-- Which letters belong to a name does not depend on brackets. -/
theorem isClear_rounded (before : List Char) : isClear (rounded before) = isClear before := by
  have same : isAxisLetter ∘ roundBracket = isAxisLetter := funext isAxisLetter_roundBracket
  rw [isClear, isClear, rounded, List.dropWhile_map, same]
  cases before.dropWhile isAxisLetter <;> simp

theorem endsAtom_rounded (before : List Char) (c : Char) :
    endsAtom (rounded before) (roundBracket c) = endsAtom before c := by
  simp only [endsAtom, isFactor_eq, isDigit_roundBracket, isClosing_roundBracket,
    isAxisLetter_roundBracket, isClear_rounded]

/-- The cut with round brackets only. -/
def Cut.rounded (cut : Cut) : Cut := ⟨cut.mark, Text.rounded cut.behind, Text.rounded cut.after⟩

/-- The text before a cut is rounded with it. -/
theorem before_rounded (cut : Cut) : cut.rounded.before = rounded cut.before :=
  (rounded_reverse cut.behind).symm

/-- A rounded text is cut where the text is, and in the same way. -/
theorem cutAt?_rounded (before : List Char) (c : Char) (rest : List Char) :
    cutAt? (rounded before) (roundBracket c) (rounded rest) =
      (cutAt? before c rest).map Cut.rounded := by
  simp only [cutAt?, isOpening_roundBracket, ofSign?_roundBracket]
  split
  · rfl
  · split
    · rfl
    · cases rest with
      | nil => rfl
      | cons d rest =>
        simp only [rounded_cons, endsAtom_rounded, startsAtom_roundBracket]
        split <;> rfl

/-- By induction on the text: the scan is at the same depth at every character. -/
theorem cutsFrom_rounded (depth : Nat) (before s : List Char) :
    cutsFrom depth (rounded before) (rounded s) = (cutsFrom depth before s).map Cut.rounded := by
  induction s generalizing depth before with
  | nil => rfl
  | cons c s ih =>
    simp only [rounded_cons, cutsFrom, isOpening_roundBracket, isClosing_roundBracket,
      cutAt?_rounded, List.map_append]
    rw [← rounded_cons, ih]
    generalize (if isClosing c then depth - 1 else depth) = level
    by_cases outside : level = 0
    · rw [if_pos outside, if_pos outside]
      cases cutAt? before c s <;> rfl
    · rw [if_neg outside, if_neg outside]
      rfl

/-- How loose a cut is does not depend on the texts beside it. -/
theorem loosest?_rounded (cuts : List Cut) :
    loosest? (cuts.map Cut.rounded) = (loosest? cuts).map Cut.rounded := by
  induction cuts with
  | nil => rfl
  | cons a rest ih =>
    rw [List.map_cons, loosest?, loosest?, ih]
    cases loosest? rest with
    | none => rfl
    | some best =>
      show (if best.mark.looseness < a.mark.looseness then some a.rounded else some best.rounded) =
        Option.map Cut.rounded
          (if best.mark.looseness < a.mark.looseness then some a else some best)
      by_cases looser : best.mark.looseness < a.mark.looseness
      · rw [if_pos looser, if_pos looser]
        rfl
      · rw [if_neg looser, if_neg looser]
        rfl

/-- The split with round brackets only. -/
def Split.rounded : Split → Split
  | .atom token => .atom (Text.rounded token)
  | .negate a => .negate (Text.rounded a)
  | .binary op l r => .binary op (Text.rounded l) (Text.rounded r)
  | .call name a => .call (Text.rounded name) (Text.rounded a)

/-- A rounded cut makes the rounded split. -/
theorem cutSplit_rounded (cut : Cut) : cut.rounded.split = cut.split.rounded := by
  obtain ⟨mark, behind, after⟩ := cut
  have before := before_rounded ⟨mark, behind, after⟩
  cases mark with
  | sign op =>
    simp only [Cut.split, before, rounded_eq_nil_iff]
    simp only [Cut.rounded, unwrap_rounded]
    split <;> rfl
  | junction =>
    simp only [Cut.split, before, Split.rounded]
    simp only [Cut.rounded, unwrap_rounded]
  | call =>
    simp only [Cut.split, before, Split.rounded]
    simp only [Cut.rounded, unwrap_rounded, ← rounded_dropLast]

/-- A text and its rounded text are split at the same place. -/
theorem split_rounded (text : List Char) :
    split (rounded text) = (split text).map Split.rounded := by
  have scanned : cuts (rounded text) = (cuts text).map Cut.rounded := cutsFrom_rounded 0 [] text
  have balance : isBalanced (rounded text) = isBalanced text := by
    rw [isBalanced, isBalanced, depthFrom_rounded]
  unfold split
  simp only [rounded_eq_nil_iff, balance, scanned, loosest?_rounded]
  by_cases nothing : text = []
  · rw [if_pos nothing, if_pos nothing]
    rfl
  rw [if_neg nothing, if_neg nothing]
  by_cases balanced : isBalanced text = true
  · rw [if_pos balanced, if_pos balanced]
    cases loosest? (cuts text) with
    | none => rfl
    | some cut => exact congrArg Except.ok (cutSplit_rounded cut)
  · rw [if_neg balanced, if_neg balanced]
    rfl

end Scan

end Fluxion.Text
