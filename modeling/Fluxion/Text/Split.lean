import Fluxion.Text.Atoms

/-!
# Cutting a text in two

A text is read by cutting it at its loosest operation outside all brackets, the rightmost one
when several are equally loose. The places to cut are the signs of the operations, the
opening brackets, which cut a call off its argument, and the junctions where a product is
written without a sign. `cuts` lists them from left to right and `split` cuts at the one that
`loosest?` picks; both halves lose a pair of brackets around them.

Every half is shorter than the text (`Split.Shorter`), so reading by cutting ends.
-/

namespace Fluxion

/-- Why a text is no expression. -/
inductive ParseError where
  | unknownToken (token : List Char)
  | mismatchedBracket
  | emptyInput
  /-- A function of more variables than the expression may have. -/
  | dimensionMismatch (name : List Char)
  /-- An operation that joins nothing. -/
  | invalidInput
  | other (text : List Char)
  deriving DecidableEq, Repr

end Fluxion

namespace Fluxion.Text
set_option autoImplicit false

/-- What a text is cut at. -/
inductive Mark where
  | sign (op : Op)
  /-- A product without a sign. -/
  | junction
  /-- An opening bracket. -/
  | call
  deriving DecidableEq, Repr

/-- How loosely an operation binds. -/
def looseness : Op → Nat
  | .add | .sub => 4
  | .mul | .div => 3
  | .pow => 2

/-- How loosely the operation of a mark binds; a call binds tightest. -/
def Mark.looseness : Mark → Nat
  | .sign op => Text.looseness op
  | .junction => Text.looseness .mul
  | .call => 1

/-- A place to cut a text: the mark, the text before it, reversed, and the text after it. -/
structure Cut where
  mark : Mark
  behind : List Char
  after : List Char
  deriving DecidableEq, Repr

/-- The text before a cut. -/
def Cut.before (cut : Cut) : List Char := cut.behind.reverse

/-- The cut at the character `c`, which stands outside all brackets after the reversed text
`before`. -/
def cutAt? (before : List Char) (c : Char) (rest : List Char) : Option Cut :=
  if isOpening c then some ⟨.call, before, rest⟩
  else match Op.ofSign? c with
    | some op => some ⟨.sign op, before, rest⟩
    | none =>
      match rest with
      | [] => none
      | d :: _ =>
        if endsAtom before c && startsAtom d then some ⟨.junction, c :: before, rest⟩
        else none

/-- The cuts of the text after the reversed text `before`, which leaves `depth` brackets open. -/
def cutsFrom (depth : Nat) (before : List Char) : List Char → List Cut
  | [] => []
  | c :: rest =>
    let level := if isClosing c then depth - 1 else depth
    (if level = 0 then (cutAt? before c rest).toList else []) ++
      cutsFrom (if isOpening c then level + 1 else level) (c :: before) rest

/-- The places where a text can be cut, from left to right. -/
def cuts (text : List Char) : List Cut := cutsFrom 0 [] text

/-- The loosest cut, the last one of several. -/
def loosest? : List Cut → Option Cut
  | [] => none
  | cut :: rest =>
    match loosest? rest with
    | none => some cut
    | some best => if best.mark.looseness < cut.mark.looseness then some cut else some best

/-- A text taken apart. -/
inductive Split where
  | atom (token : List Char)
  | negate (operand : List Char)
  | binary (op : Op) (lhs rhs : List Char)
  | call (name argument : List Char)
  deriving DecidableEq, Repr

/-- A text taken apart at a cut. A difference with nothing before its sign is a negation, and
the bracket of a call ends with the text. -/
def Cut.split (cut : Cut) : Split :=
  match cut.mark with
  | .sign op =>
    if op = .sub ∧ cut.before = [] then .negate (unwrap cut.after)
    else .binary op (unwrap cut.before) (unwrap cut.after)
  | .junction => .binary .mul (unwrap cut.before) (unwrap cut.after)
  | .call => .call (unwrap cut.before) (unwrap cut.after.dropLast)

/-- A text taken apart at its loosest operation. -/
def split (text : List Char) : Except ParseError Split :=
  if text = [] then .error .emptyInput
  else if isBalanced text then
    .ok <| match loosest? (cuts text) with
      | some cut => cut.split
      | none => .atom text
  else .error .mismatchedBracket

/-- The halves of a cut are shorter than the text. -/
def Cut.Shorter (cut : Cut) (n : Nat) : Prop := cut.before.length < n ∧ cut.after.length < n

theorem shorter_of_cutAt? {before rest : List Char} {c : Char} {cut : Cut}
    (h : cutAt? before c rest = some cut) : cut.Shorter (before.length + (rest.length + 1)) := by
  unfold cutAt? at h
  split at h
  · cases h; simp [Cut.Shorter, Cut.before]; omega
  · split at h
    · cases h; simp [Cut.Shorter, Cut.before]; omega
    · split at h
      · contradiction
      · split at h
        · cases h; simp [Cut.Shorter, Cut.before]; omega
        · contradiction

/-- The texts on both sides of a cut are shorter than the text. -/
theorem shorter_of_mem_cutsFrom {depth : Nat} {before text : List Char} {cut : Cut}
    (h : cut ∈ cutsFrom depth before text) : cut.Shorter (before.length + text.length) := by
  induction text generalizing depth before with
  | nil => simp [cutsFrom] at h
  | cons c rest ih =>
    simp only [cutsFrom, List.mem_append] at h
    rcases h with h | h
    · have := @shorter_of_cutAt? before rest c cut
      refine this (Option.mem_toList.1 ?_)
      revert h
      generalize (if isClosing c then depth - 1 else depth) = level
      split
      · exact id
      · intro h; contradiction
    · have := ih h
      simp only [List.length_cons] at this ⊢
      rwa [show before.length + (rest.length + 1) = before.length + 1 + rest.length by omega]

theorem mem_of_loosest? {cuts : List Cut} {cut : Cut} (h : loosest? cuts = some cut) :
    cut ∈ cuts := by
  induction cuts with
  | nil => contradiction
  | cons a rest ih =>
    unfold loosest? at h
    split at h
    · cases h; exact List.mem_cons_self ..
    · rename_i best found
      split at h
      · cases h; exact List.mem_cons_self ..
      · cases h; exact List.mem_cons_of_mem _ (ih found)

/-- The parts of a split that are read further are shorter than `n`. -/
def Split.Shorter (n : Nat) : Split → Prop
  | .atom _ => True
  | .negate a => a.length < n
  | .binary _ l r => l.length < n ∧ r.length < n
  | .call _ a => a.length < n

/-- The parts of a split are shorter than the text, so the reader can go on with them. -/
theorem shorter_of_split {text : List Char} {s : Split} (h : split text = .ok s) :
    s.Shorter text.length := by
  unfold split at h
  split at h
  · contradiction
  · split at h
    · cases h
      split
      · rename_i cut found
        have short := shorter_of_mem_cutsFrom (mem_of_loosest? found)
        simp only [Cut.Shorter, List.length_nil, Nat.zero_add] at short
        have := length_unwrap_le cut.before
        have := length_unwrap_le cut.after
        have := length_unwrap_le cut.after.dropLast
        have : cut.after.dropLast.length ≤ cut.after.length := by simp
        unfold Cut.split
        split
        · split <;> simp only [Split.Shorter] <;> omega
        · simp only [Split.Shorter]; omega
        · simp only [Split.Shorter]; omega
      · trivial
    · contradiction

end Fluxion.Text
