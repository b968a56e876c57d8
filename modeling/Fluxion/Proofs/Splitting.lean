import Fluxion.Proofs.Scanning

/-!
# Where a text is split

The loosest cut wins, and the rightmost of several. A text made of two scanned texts is split
between them when what stands on the left binds no looser than the cut and what stands on the right
binds tighter.
-/

namespace Fluxion.Text
set_option autoImplicit false

variable {a b s : List Char} {c : Char} {m n : Nat}

/-- A cut that is looser than those after it, and no tighter than those before it, is picked. -/
theorem loosest?_append {left right : List Cut} {cut : Cut}
    (before : ∀ k ∈ left, k.mark.looseness ≤ cut.mark.looseness)
    (after : ∀ k ∈ right, k.mark.looseness < cut.mark.looseness) :
    loosest? (left ++ cut :: right) = some cut := by
  induction left with
  | nil =>
    rw [List.nil_append, loosest?]
    split
    · rfl
    · rename_i best found
      rw [if_pos (after best (mem_of_loosest? found))]
  | cons k left ih =>
    rw [List.cons_append, loosest?, ih fun k hk => before k (List.mem_cons_of_mem _ hk)]
    exact if_neg (Nat.not_lt.2 (before k (List.mem_cons_self ..)))

theorem loosest?_eq_none {cuts : List Cut} (h : loosest? cuts = none) : cuts = [] := by
  cases cuts with
  | nil => rfl
  | cons a rest =>
    unfold loosest? at h
    split at h
    · contradiction
    · split at h <;> contradiction

/-- The cut that is picked is looser than those after it, and no tighter than those before it. -/
theorem exists_append_of_loosest? {cuts : List Cut} {best : Cut} (h : loosest? cuts = some best) :
    ∃ left right, cuts = left ++ best :: right ∧
      (∀ k ∈ left, k.mark.looseness ≤ best.mark.looseness) ∧
      ∀ k ∈ right, k.mark.looseness < best.mark.looseness := by
  induction cuts generalizing best with
  | nil => contradiction
  | cons cut rest ih =>
    unfold loosest? at h
    split at h
    · rename_i none
      cases h
      exact ⟨[], [], by rw [loosest?_eq_none none]; rfl, by simp, by simp⟩
    · rename_i next found
      obtain ⟨left, right, rfl, before, after⟩ := ih found
      split at h
      · rename_i looser
        cases h
        refine ⟨[], _, rfl, by simp, ?_⟩
        intro k hk
        rcases List.mem_append.1 hk with hk | hk
        · have := before k hk
          omega
        · rcases List.mem_cons.1 hk with rfl | hk
          · exact looser
          · have := after k hk
            omega
      · rename_i tighter
        cases h
        refine ⟨cut :: left, right, rfl, ?_, after⟩
        intro k hk
        rcases List.mem_cons.1 hk with rfl | hk
        · exact Nat.not_lt.1 tighter
        · exact before k hk

theorem split_of_cuts {text : List Char} {left right : List Cut} {cut : Cut}
    (nonempty : text ≠ []) (balanced : depthFrom 0 text = some 0)
    (found : cuts text = left ++ cut :: right)
    (before : ∀ k ∈ left, k.mark.looseness ≤ cut.mark.looseness)
    (after : ∀ k ∈ right, k.mark.looseness < cut.mark.looseness) :
    split text = .ok cut.split := by
  have whole : isBalanced text = true := decide_eq_true balanced
  rw [split, if_neg nonempty, if_pos whole, found, loosest?_append before after]

theorem Mark.looseness_pos (mark : Mark) : 0 < mark.looseness := by
  cases mark with
  | sign op => cases op <;> decide
  | junction | call => decide

/-- A text without a cut is a token. -/
theorem split_token (h : Scanned 0 s) : split s = .ok (.atom s) := by
  have whole : isBalanced s = true := decide_eq_true h.balanced
  have none : cuts s = [] := by
    refine List.eq_nil_iff_forall_not_mem.2 ?_
    intro cut hc
    have upper := h.cuts_le cut hc
    have lower := cut.mark.looseness_pos
    omega
  rw [split, if_neg h.nonempty, if_pos whole, none]
  rfl

/-- Two texts with a sign between them are split at the sign. -/
theorem split_sign (ha : Scanned m a) (hb : Scanned n b) {op : Op} (left : m ≤ looseness op)
    (right : n < looseness op) :
    split (a ++ op.sign :: b) = .ok (.binary op (unwrap a) (unwrap b)) := by
  obtain ⟨before, after, cuts, boundBefore, boundAfter⟩ := scan_sign ha hb op [] [] rfl
  have balanced : depthFrom 0 (a ++ op.sign :: b) = some 0 := by
    rw [depthFrom_append, ha.balanced]
    exact (depthFrom_sign op 0 b).trans hb.balanced
  have found : Text.cuts (a ++ op.sign :: b) = before ++ ⟨.sign op, a.reverse, b⟩ :: after := by
    simpa [Text.cuts, juncture, cutsFrom] using cuts
  have noLooser : ∀ k ∈ before, k.mark.looseness ≤ looseness op := by
    intro k hk
    have bound := boundBefore k hk
    omega
  have tighter : ∀ k ∈ after, k.mark.looseness < looseness op := by
    intro k hk
    have bound := boundAfter k hk
    omega
  rw [split_of_cuts (by simp) balanced found noLooser tighter]
  simp [Cut.split, Cut.before, ha.nonempty]

/-- Two texts that make a product without a sign are split between them. -/
theorem split_juxtaposed (ha : Scanned m a) (hb : Scanned n b) (ends : endsOperand a = true)
    (starts : ∃ d t, b = d :: t ∧ startsAtom d = true) (left : m ≤ looseness .mul)
    (right : n < looseness .mul) : split (a ++ b) = .ok (.binary .mul (unwrap a) (unwrap b)) := by
  obtain ⟨before, after, cuts, boundBefore, boundAfter⟩ :=
    scan_juxtaposed ha hb ends starts [] [] rfl
  have balanced : depthFrom 0 (a ++ b) = some 0 := by
    rw [depthFrom_append, ha.balanced]
    exact hb.balanced
  have found : Text.cuts (a ++ b) = before ++ ⟨.junction, a.reverse, b⟩ :: after := by
    simpa [Text.cuts, juncture, cutsFrom] using cuts
  have noLooser : ∀ k ∈ before, k.mark.looseness ≤ looseness .mul := by
    intro k hk
    have bound := boundBefore k hk
    omega
  have tighter : ∀ k ∈ after, k.mark.looseness < looseness .mul := by
    intro k hk
    have bound := boundAfter k hk
    omega
  rw [split_of_cuts (by simp [hb.nonempty]) balanced found noLooser tighter]
  simp [Cut.split, Cut.before]

/-- A sign in front negates everything that binds tighter. -/
theorem split_negated (h : Scanned n s) (tight : n < looseness .sub) :
    split ('-' :: s) = .ok (.negate (unwrap s)) := by
  obtain ⟨after, cuts, bound⟩ := scan_after_sign h .sub [] []
  rw [List.append_nil] at cuts
  have found : Text.cuts ('-' :: s) = [] ++ ⟨.sign .sub, [], s⟩ :: after :=
    cuts.trans (by simp [juncture, cutsFrom])
  have balanced : depthFrom 0 ('-' :: s) = some 0 := h.balanced
  have tighter : ∀ k ∈ after, k.mark.looseness < looseness .sub := by
    intro k hk
    have bound := bound k hk
    omega
  rw [split_of_cuts (by simp) balanced found (by simp) tighter]
  rfl

/-- A name and a text in brackets are a call. -/
theorem split_call {o : Char} (ha : ∀ c ∈ a, NameLetter c) (ho : isOpening o = true)
    (hc : isClosing c = true) (balanced : depthFrom 0 s = some 0) :
    split (a ++ o :: (s ++ [c])) = .ok (.call (unwrap a) (unwrap s)) := by
  have found : cuts (a ++ o :: (s ++ [c])) = [] ++ ⟨.call, a.reverse, s ++ [c]⟩ :: [] := by
    have name := scan_name ha [] (o :: (s ++ [c]))
    have group := scan_brackets ho hc balanced a.reverse []
    rw [List.append_nil] at name group
    rw [cuts, name, group]
    rfl
  rw [split_of_cuts (by simp) (scanned_call ha ho hc balanced).balanced found (by simp) (by simp)]
  simp [Cut.split, Cut.before]

end Fluxion.Text
