import Mathlib.Data.List.Infix
import Fluxion.Proofs.Splitting

/-!
# The parts of a split

A text is balanced before each of its cuts (`cutsAt_of_mem_cuts`), so it is balanced after them too,
and the parts that a split leaves are pieces of the text (`infix_of_split`). They are balanced as
well, with one exception (`balanced_of_split`): the argument of a call is taken to end before the
last character of the text, which is the bracket that closes it unless a digit or a point stands
behind that bracket (`Trailed`). Anything else behind it would be a looser place to cut.
-/

namespace Fluxion.Text
set_option autoImplicit false

variable {text before rest s : List Char} {c : Char} {d k : Nat} {cut : Cut}

section Depth

/-- The depth after a text that goes on. -/
theorem depthFrom_append_eq_some {a b : List Char} :
    depthFrom d (a ++ b) = some k ↔ ∃ m, depthFrom d a = some m ∧ depthFrom m b = some k := by
  rw [depthFrom_append, Option.bind_eq_some_iff]

/-- A text that goes from above depth `d` down to zero closes a bracket at depth `d`. -/
theorem exists_isClosing (h : depthFrom (d + k + 1) s = some 0) :
    ∃ a c b, s = a ++ c :: b ∧ depthFrom k a = some 0 ∧ isClosing c = true ∧
      depthFrom d b = some 0 := by
  induction s generalizing k with
  | nil => cases h
  | cons x s ih =>
    obtain ⟨opening, h⟩ | ⟨closing, e, same, h⟩ | ⟨opening, closing, h⟩ :=
      depthFrom_cons_eq_some h
    · obtain ⟨a, c, b, rfl, inner, closes, outer⟩ := @ih (k + 1) h
      exact ⟨x :: a, c, b, rfl, (depthFrom_opening opening).trans inner, closes, outer⟩
    · obtain rfl : d + k = e := by omega
      cases k with
      | zero => exact ⟨[], x, s, rfl, rfl, closing, h⟩
      | succ k =>
        obtain ⟨a, c, b, rfl, inner, closes, outer⟩ := ih h
        exact ⟨x :: a, c, b, rfl, (depthFrom_closing closing).trans inner, closes, outer⟩
    · obtain ⟨a, c, b, rfl, inner, closes, outer⟩ := ih h
      exact ⟨x :: a, c, b, rfl, (depthFrom_other opening closing).trans inner, closes, outer⟩

/-- Up to the last character a text that stays open closes no bracket but its own. -/
theorem exists_depthFrom_of_staysOpen (h : staysOpen (d + 1) (s ++ [c]) = true) :
    ∃ m, depthFrom d s = some m := by
  induction s generalizing d with
  | nil => exact ⟨d, rfl⟩
  | cons x s ih =>
    rw [List.cons_append, staysOpen_cons (by simp)] at h
    split at h
    · rename_i opening
      rw [depthFrom_opening opening]
      exact ih h
    · rename_i notOpening
      split at h
      · rename_i closing
        rw [Bool.and_eq_true, decide_eq_true_eq] at h
        obtain ⟨above, h⟩ := h
        cases d with
        | zero => omega
        | succ d =>
          rw [depthFrom_closing closing]
          exact ih h
      · rename_i notClosing
        rw [depthFrom_other (eq_false_of_ne_true notOpening) (eq_false_of_ne_true notClosing)]
        exact ih h

end Depth

section Unwrap

/-- What is left without outer brackets is a part of the text. -/
theorem infix_unwrap (text : List Char) : unwrap text <:+: text := by
  unfold unwrap
  split
  · exact List.infix_rfl
  · split
    · exact (List.dropLast_prefix _).isInfix.trans (List.suffix_cons ..).isInfix
    · exact List.infix_rfl

/-- A matched text keeps its brackets, or it is a matched text in brackets and loses them. -/
theorem unwrap_eq_or (h : depthFrom 0 text = some 0) :
    unwrap text = text ∨ ∃ o s c, text = o :: (s ++ [c]) ∧ unwrap text = s ∧
      isOpening o = true ∧ isClosing c = true ∧ depthFrom 0 s = some 0 := by
  cases text with
  | nil => exact .inl rfl
  | cons o s =>
    rw [unwrap]
    split
    · rename_i enclosed
      simp only [Bool.and_eq_true, Bool.not_eq_true', List.isEmpty_eq_false_iff] at enclosed
      obtain ⟨⟨opening, nonempty⟩, stays⟩ := enclosed
      obtain ⟨a, x, rfl⟩ := s.eq_nil_or_concat'.resolve_left nonempty
      obtain ⟨m, inner⟩ := exists_depthFrom_of_staysOpen stays
      rw [depthFrom_opening opening, depthFrom_append_eq_some] at h
      obtain ⟨n, outer, last⟩ := h
      rw [depthFrom_add inner 1] at outer
      cases outer
      obtain ⟨-, last⟩ | ⟨closing, e, same, last⟩ | ⟨-, -, last⟩ := depthFrom_cons_eq_some last <;>
        cases last
      rw [Nat.succ.inj same] at inner
      exact .inr ⟨o, a, x, rfl, List.dropLast_concat, opening, closing, inner⟩
    · exact .inl rfl

/-- A balanced text is balanced without its outer brackets. -/
theorem depthFrom_unwrap (h : depthFrom 0 text = some 0) : depthFrom 0 (unwrap text) = some 0 := by
  obtain same | ⟨o, s, c, -, inside, -, -, balanced⟩ := unwrap_eq_or h
  · rwa [same]
  · rwa [inside]

end Unwrap

section Cuts

/-- A place to cut a text that is balanced before it, with nothing but the mark between the two
sides. -/
inductive CutsAt (text : List Char) : Cut → Prop where
  | sign (op : Op) {a b} : text = a ++ op.sign :: b → depthFrom 0 a = some 0 →
      CutsAt text ⟨.sign op, a.reverse, b⟩
  | junction {a b} : text = a ++ b → depthFrom 0 a = some 0 → CutsAt text ⟨.junction, a.reverse, b⟩
  | call {a o b} : text = a ++ o :: b → isOpening o = true → depthFrom 0 a = some 0 →
      CutsAt text ⟨.call, a.reverse, b⟩

theorem cutsAt_of_cutAt? (same : text = before.reverse ++ c :: rest)
    (behind : isClosing c = false → depthFrom 0 before.reverse = some 0)
    (through : isOpening c = false → depthFrom 0 (c :: before).reverse = some 0)
    (h : cutAt? before c rest = some cut) : CutsAt text cut := by
  unfold cutAt? at h
  split at h
  · rename_i opening
    cases h
    rw [← before.reverse_reverse]
    exact .call same opening (behind (not_isClosing_of_isOpening opening))
  · rename_i notOpening
    split at h
    · rename_i op sign
      cases h
      obtain rfl := Op.sign_of_ofSign? sign
      rw [← before.reverse_reverse]
      exact .sign op same (behind (by cases op <;> rfl))
    · split at h
      · contradiction
      · split at h
        · cases h
          rw [← (c :: before).reverse_reverse]
          exact .junction (by simp [same]) (through (by simpa using notOpening))
        · contradiction

theorem mem_cutsFrom_cons (level : (if isClosing c then d - 1 else d) = k) :
    cut ∈ cutsFrom d before (c :: rest) ↔
      (k = 0 ∧ cutAt? before c rest = some cut) ∨
        cut ∈ cutsFrom (if isOpening c then k + 1 else k) (c :: before) rest := by
  rw [cutsFrom, level, List.mem_append]
  refine or_congr_left ?_
  split <;> simp_all

/-- The scan of a balanced text cuts it where it is balanced. -/
theorem cutsAt_of_mem_cutsFrom (same : text = before.reverse ++ rest)
    (behind : depthFrom 0 before.reverse = some d) (ahead : depthFrom d rest = some 0)
    (h : cut ∈ cutsFrom d before rest) : CutsAt text cut := by
  induction rest generalizing d before with
  | nil => contradiction
  | cons c rest ih =>
    have whole : text = (c :: before).reverse ++ rest := by simp [same]
    have next {e : Nat} (step : depthFrom d [c] = some e) :
        depthFrom 0 (c :: before).reverse = some e := by
      rw [List.reverse_cons, depthFrom_append_eq_some]
      exact ⟨d, behind, step⟩
    obtain ⟨opening, inside⟩ | ⟨closing, e, rfl, inside⟩ | ⟨opening, closing, inside⟩ :=
      depthFrom_cons_eq_some ahead
    · have level : (if isClosing c then d - 1 else d) = d := by
        simp [not_isClosing_of_isOpening opening]
      rw [mem_cutsFrom_cons level, if_pos opening] at h
      obtain ⟨rfl, h⟩ | h := h
      · exact cutsAt_of_cutAt? same (fun _ => behind) (by simp [opening]) h
      · exact ih whole (next (depthFrom_opening opening)) inside h
    · have level : (if isClosing c then e + 1 - 1 else e + 1) = e := by simp [closing]
      rw [mem_cutsFrom_cons level, not_isOpening_of_isClosing closing] at h
      obtain ⟨rfl, h⟩ | h := h
      · exact cutsAt_of_cutAt? same (by simp [closing])
          (fun _ => next (depthFrom_closing closing)) h
      · exact ih whole (next (depthFrom_closing closing)) inside h
    · have level : (if isClosing c then d - 1 else d) = d := by simp [closing]
      rw [mem_cutsFrom_cons level, opening] at h
      obtain ⟨rfl, h⟩ | h := h
      · exact cutsAt_of_cutAt? same (fun _ => behind)
          (fun _ => next (depthFrom_other opening closing)) h
      · exact ih whole (next (depthFrom_other opening closing)) inside h

/-- In a balanced text every cut stands outside all brackets. -/
theorem cutsAt_of_mem_cuts (balanced : depthFrom 0 text = some 0) (h : cut ∈ cuts text) :
    CutsAt text cut :=
  cutsAt_of_mem_cutsFrom rfl rfl balanced h

/-- A scan goes on behind a text as it would behind any text of its depth. -/
theorem mem_cutsFrom_append {a : List Char} (depth : depthFrom d a = some k)
    (h : cut ∈ cutsFrom k (a.reverse ++ before) rest) : cut ∈ cutsFrom d before (a ++ rest) := by
  induction a generalizing d before with
  | nil =>
    cases depth
    exact h
  | cons c a ih =>
    rw [List.reverse_cons, List.append_assoc, List.singleton_append] at h
    rw [List.cons_append, cutsFrom, List.mem_append]
    refine .inr ?_
    obtain ⟨opening, inside⟩ | ⟨closing, e, rfl, inside⟩ | ⟨opening, closing, inside⟩ :=
      depthFrom_cons_eq_some depth
    · simpa [opening, not_isClosing_of_isOpening opening] using ih inside h
    · simpa [closing, not_isOpening_of_isClosing closing] using ih inside h
    · simpa [opening, closing] using ih inside h

/-- No cut is looser than the one that is chosen. -/
theorem looseness_le_of_loosest? {cuts : List Cut} {best : Cut} (h : loosest? cuts = some best) :
    ∀ k ∈ cuts, k.mark.looseness ≤ best.mark.looseness := by
  obtain ⟨left, right, rfl, before, after⟩ := exists_append_of_loosest? h
  intro k hk
  rcases List.mem_append.1 hk with hk | hk
  · exact before k hk
  · rcases List.mem_cons.1 hk with rfl | hk
    · exact Nat.le_refl _
    · exact Nat.le_of_lt (after k hk)

end Cuts

section Parts

/-- The texts that a split leaves, to be read or to be looked up. -/
def Split.parts : Split → List (List Char)
  | .atom token => [token]
  | .negate a => [a]
  | .binary _ l r => [l, r]
  | .call name a => [name, a]

/-- The text after a cut; that of a call ends before the last character. -/
def Cut.operand (cut : Cut) : List Char :=
  match cut.mark with
  | .call => cut.after.dropLast
  | _ => cut.after

/-- A closing bracket with a digit or a point behind it. -/
def Trailed (text : List Char) : Prop :=
  ∃ a c x b, text = a ++ c :: x :: b ∧ isClosing c = true ∧
    (Unicode.isDigit x = true ∨ x = '.')

/-- A closing bracket with a figure behind it has it in every larger text. -/
theorem Trailed.of_infix (h : Trailed s) (inside : s <:+: text) : Trailed text := by
  obtain ⟨a, c, x, b, rfl, closing, figure⟩ := h
  obtain ⟨before, after, rfl⟩ := inside
  exact ⟨before ++ a, c, x, b ++ after, by simp, closing, figure⟩

theorem eq_unwrap_of_mem_parts {part : List Char} (h : part ∈ cut.split.parts) :
    part = unwrap cut.before ∨ part = unwrap cut.operand := by
  obtain ⟨mark, behind, after⟩ := cut
  cases mark with
  | sign op =>
    simp only [Cut.split] at h
    split at h
    · exact .inr (List.mem_singleton.1 h)
    · exact List.mem_pair.1 h
  | junction | call => exact List.mem_pair.1 h

theorem infix_of_cutsAt (h : CutsAt text cut) :
    cut.before <:+: text ∧ cut.operand <:+: text := by
  cases h with
  | @sign op a b same =>
    subst same
    rw [Cut.before, List.reverse_reverse]
    exact ⟨(List.prefix_append ..).isInfix,
      ((List.suffix_cons ..).trans (List.suffix_append ..)).isInfix⟩
  | @junction a b same =>
    subst same
    rw [Cut.before, List.reverse_reverse]
    exact ⟨(List.prefix_append ..).isInfix, (List.suffix_append ..).isInfix⟩
  | @call a o b same =>
    subst same
    rw [Cut.before, List.reverse_reverse]
    exact ⟨(List.prefix_append ..).isInfix, (List.dropLast_prefix _).isInfix.trans
      ((List.suffix_cons ..).trans (List.suffix_append ..)).isInfix⟩

/-- What follows a closing bracket outside all others is a figure, when no sign and no junction is
met in the text. -/
theorem trailed_of_calls {a b : List Char} {x : Char} (same : text = a ++ c :: x :: b)
    (depth : depthFrom 0 a = some 1) (closing : isClosing c = true)
    (calls : ∀ k ∈ cuts text, k.mark.looseness ≤ 1) : Trailed text := by
  refine ⟨a, c, x, b, same, closing, ?_⟩
  by_contra noFigure
  rw [not_or, Bool.not_eq_true] at noFigure
  have met : ∀ k ∈ juncture (c :: a.reverse) true (x :: b) ++ cutsFrom 0 (c :: a.reverse) (x :: b),
      k.mark.looseness ≤ 1 := by
    intro k hk
    rw [← cutsFrom_closing closing] at hk
    refine calls k ?_
    rw [same]
    exact mem_cutsFrom_append depth (by simpa using hk)
  cases sign : Op.ofSign? x with
  | some op =>
    obtain rfl := Op.sign_of_ofSign? sign
    rw [cutsFrom_sign] at met
    have tight : (Mark.sign op).looseness ≤ 1 := met ⟨_, c :: a.reverse, b⟩ (by simp)
    cases op <;> exact absurd tight (by decide)
  | none =>
    have starts : startsAtom x = true := by simp [startsAtom, noFigure, isSign, sign]
    have tight : Mark.junction.looseness ≤ 1 :=
      met ⟨_, c :: a.reverse, x :: b⟩ (by simp [juncture, starts])
    exact absurd tight (by decide)

/-- Both sides of the loosest cut are balanced, unless a figure stands behind a closing bracket. -/
theorem balanced_of_loosest? (balanced : depthFrom 0 text = some 0) (tidy : ¬Trailed text)
    (found : loosest? (cuts text) = some cut) :
    depthFrom 0 cut.before = some 0 ∧ depthFrom 0 cut.operand = some 0 := by
  cases cutsAt_of_mem_cuts balanced (mem_of_loosest? found) with
  | @sign op a b same depth =>
    subst same
    rw [Cut.before, List.reverse_reverse]
    obtain ⟨m, ha, hb⟩ := depthFrom_append_eq_some.1 balanced
    obtain rfl := Option.some.inj (depth.symm.trans ha)
    exact ⟨depth, (depthFrom_sign op 0 b).symm.trans hb⟩
  | @junction a b same depth =>
    subst same
    rw [Cut.before, List.reverse_reverse]
    obtain ⟨m, ha, hb⟩ := depthFrom_append_eq_some.1 balanced
    obtain rfl := Option.some.inj (depth.symm.trans ha)
    exact ⟨depth, hb⟩
  | @call a o b same opening depth =>
    subst same
    rw [Cut.before, List.reverse_reverse]
    refine ⟨depth, ?_⟩
    obtain ⟨m, ha, hb⟩ := depthFrom_append_eq_some.1 balanced
    obtain rfl := Option.some.inj (depth.symm.trans ha)
    rw [depthFrom_opening opening] at hb
    obtain ⟨s, c, t, rfl, inner, closing, -⟩ := @exists_isClosing b 0 0 hb
    -- Behind the closing bracket there is nothing: whatever could stand there is a looser cut or a
    -- figure.
    cases t with
    | nil => simpa [Cut.operand] using inner
    | cons x t =>
      have same : a ++ o :: (s ++ c :: x :: t) = a ++ o :: s ++ c :: x :: t := by simp
      have behind : depthFrom 0 (a ++ o :: s) = some 1 := by
        rw [depthFrom_append, depth, Option.bind_some, depthFrom_opening opening]
        exact depthFrom_add inner 1
      exact absurd (trailed_of_calls same behind closing (looseness_le_of_loosest? found)) tidy

/-- A text that is split is balanced, and it is whole or cut at a loosest cut. -/
theorem split_eq_ok {parts : Split} (h : split text = .ok parts) :
    depthFrom 0 text = some 0 ∧
      (parts = .atom text ∨ ∃ cut, loosest? (cuts text) = some cut ∧ parts = cut.split) := by
  unfold split at h
  split at h
  · contradiction
  · split at h
    · rename_i balanced
      refine ⟨of_decide_eq_true balanced, ?_⟩
      cases h
      split
      · exact .inr ⟨_, by assumption, rfl⟩
      · exact .inl rfl
    · contradiction

/-- The parts of a text are pieces of it. -/
theorem infix_of_split {parts : Split} (h : split text = .ok parts) :
    ∀ part ∈ parts.parts, part <:+: text := by
  intro part hp
  obtain ⟨balanced, rfl | ⟨cut, found, rfl⟩⟩ := split_eq_ok h
  · obtain rfl := List.mem_singleton.1 hp
    exact List.infix_rfl
  · have stands := cutsAt_of_mem_cuts balanced (mem_of_loosest? found)
    obtain ⟨before, operand⟩ := infix_of_cutsAt stands
    rcases eq_unwrap_of_mem_parts hp with rfl | rfl
    · exact (infix_unwrap _).trans before
    · exact (infix_unwrap _).trans operand

/-- The parts of a text are balanced, unless a figure stands behind a closing bracket in it. -/
theorem balanced_of_split {parts : Split} (h : split text = .ok parts) (tidy : ¬Trailed text) :
    ∀ part ∈ parts.parts, depthFrom 0 part = some 0 := by
  intro part hp
  obtain ⟨balanced, rfl | ⟨cut, found, rfl⟩⟩ := split_eq_ok h
  · obtain rfl := List.mem_singleton.1 hp
    exact balanced
  · obtain ⟨before, operand⟩ := balanced_of_loosest? balanced tidy found
    rcases eq_unwrap_of_mem_parts hp with rfl | rfl
    · exact depthFrom_unwrap before
    · exact depthFrom_unwrap operand

end Parts

end Fluxion.Text
