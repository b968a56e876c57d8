import Fluxion.Proofs.Mismatch

/-!
# The candidates of a split

A text may be cut outside all brackets: at the sign of an operation, at an opening bracket, and
where a character that ends an atom meets one that starts an atom. A place of this kind is a
candidate (`Candidate`); which places are, can be told from the characters around them and from the
number of brackets open before them, without a scan. The scan of a text whose brackets match meets
every candidate and nothing else (`mem_cuts_of_candidate`, `candidate_of_mem_cuts`), from left to
right. So the cut that is picked is the loosest candidate, and the rightmost one of several
(`split_loosest`).
-/

namespace Fluxion.Text
set_option autoImplicit false

/-- A place outside all brackets where a text may be cut, with the text before it and after it. A
sign and a bracket are part of neither. -/
inductive Candidate (text : List Char) : Mark → List Char → List Char → Prop where
  | sign (op : Op) {a b : List Char} : text = a ++ op.sign :: b → depth a = 0 →
      Candidate text (.sign op) a b
  | call {a b : List Char} {o : Char} : text = a ++ o :: b → isOpening o = true → depth a = 0 →
      Candidate text .call a b
  | junction {a b : List Char} {c x : Char} : text = a ++ [c] ++ x :: b →
      depth (a ++ [c]) = 0 → endsAtom a.reverse c = true → startsAtom x = true →
      Candidate text .junction (a ++ [c]) (x :: b)

/-- The candidate is the loosest one of the text, and the rightmost of those that are as loose. -/
structure Loosest (text : List Char) (mark : Mark) (a b : List Char) : Prop where
  candidate : Candidate text mark a b
  best : ∀ {mark' a' b'}, Candidate text mark' a' b' →
    mark' = mark ∧ a' = a ∧ b' = b ∨ mark'.looseness < mark.looseness ∨
      mark'.looseness = mark.looseness ∧ a'.length < a.length

/-- Both parts are matched, and shorter than the text. -/
structure Halves (text a b : List Char) : Prop where
  left : ¬Mismatched a
  right : ¬Mismatched b
  leftShorter : a.length < text.length
  rightShorter : b.length < text.length

variable {text before rest a b a' b' : List Char} {c : Char} {d : Nat} {cut : Cut}
variable {mark mark' : Mark}

section Depth

/-- A scan that does not fail ends at the depth of the text. -/
theorem depth_eq_of_depthFrom {k : Nat} (h : depthFrom 0 a = some k) : depth a = k := by
  simpa using (depthFrom_eq_some_iff.1 h).2

/-- Where no bracket is open, a matched text falls into two matched ones. -/
theorem depthFrom_of_level (balanced : depthFrom 0 (a ++ b) = some 0) (level : depth a = 0) :
    depthFrom 0 a = some 0 ∧ depthFrom 0 b = some 0 := by
  obtain ⟨k, front, behind⟩ := depthFrom_append_eq_some.1 balanced
  have same := depth_eq_of_depthFrom front
  obtain rfl : k = 0 := by omega
  exact ⟨front, behind⟩

end Depth

section Scan

/-- A cut is met at the character before which or behind which it stands. -/
theorem length_behind_of_cutAt? (h : cutAt? before c rest = some cut) :
    before.length ≤ cut.behind.length ∧ cut.behind.length ≤ before.length + 1 := by
  unfold cutAt? at h
  split at h
  · cases h
    simp
  · split at h
    · cases h
      simp
    · split at h
      · contradiction
      · split at h
        · cases h
          simp
        · contradiction

/-- A junction that is met has the end of an atom before it and the start of one after it. -/
theorem atoms_of_mem_cutsFrom (h : cut ∈ cutsFrom d before rest) (junction : cut.mark = .junction) :
    ∃ c a x b, cut.behind = c :: a ∧ cut.after = x :: b ∧ endsAtom a c = true ∧
      startsAtom x = true := by
  induction rest generalizing d before with
  | nil => contradiction
  | cons c rest ih =>
    rw [mem_cutsFrom_cons rfl] at h
    obtain ⟨-, h⟩ | h := h
    · unfold cutAt? at h
      split at h
      · cases h
        contradiction
      · split at h
        · cases h
          contradiction
        · split at h
          · contradiction
          · split at h
            · rename_i x rest atoms
              cases h
              rw [Bool.and_eq_true] at atoms
              exact ⟨c, before, x, rest, rfl, rfl, atoms⟩
            · contradiction
    · exact ih h

/-- The scan of a matched text meets nothing but candidates. -/
theorem candidate_of_mem_cuts (balanced : depthFrom 0 text = some 0) (h : cut ∈ cuts text) :
    Candidate text cut.mark cut.before cut.after := by
  cases cutsAt_of_mem_cuts balanced h with
  | @sign op a b same front =>
    rw [Cut.before, List.reverse_reverse]
    exact .sign op same (depth_eq_of_depthFrom front)
  | @call a o b same opening front =>
    rw [Cut.before, List.reverse_reverse]
    exact .call same opening (depth_eq_of_depthFrom front)
  | @junction a b same front =>
    obtain ⟨c, a', x, b', behind, rfl, ends, starts⟩ := atoms_of_mem_cutsFrom h rfl
    have whole : a = a'.reverse ++ [c] := by simpa using congrArg List.reverse behind
    subst whole
    rw [Cut.before, List.reverse_reverse]
    refine .junction same (depth_eq_of_depthFrom front) ?_ starts
    rwa [List.reverse_reverse]

/-- What ends an operand closes a bracket or is plain. -/
theorem endsAtom_cases (h : endsAtom before c = true) : isClosing c = true ∨ Plain c := by
  rw [endsAtom, Bool.or_eq_true, Bool.or_eq_true] at h
  obtain (digit | closing) | factor := h
  · exact .inr (plain_of_isDigit digit)
  · exact .inl closing
  · rw [isFactor_eq, Bool.and_eq_true] at factor
    exact .inr (plain_of_isLetter (isLetter_of_isAxisLetter factor.1))

/-- The scan of a matched text meets every candidate. -/
theorem mem_cuts_of_candidate (balanced : depthFrom 0 text = some 0)
    (h : Candidate text mark a b) : ⟨mark, a.reverse, b⟩ ∈ cuts text := by
  cases h with
  | sign op same level =>
    subst same
    obtain ⟨front, -⟩ := depthFrom_of_level balanced level
    refine mem_cutsFrom_append front ?_
    rw [cutsFrom_sign, List.append_nil]
    exact List.mem_cons_self ..
  | call same opening level =>
    subst same
    obtain ⟨front, -⟩ := depthFrom_of_level balanced level
    refine mem_cutsFrom_append front ?_
    rw [cutsFrom_opening opening, List.append_nil]
    exact List.mem_cons_self ..
  | @junction a b c x same level ends starts =>
    subst same
    obtain ⟨front, -⟩ := depthFrom_of_level balanced level
    obtain ⟨k, inside, last⟩ := depthFrom_append_eq_some.1 front
    rw [List.append_assoc]
    refine mem_cutsFrom_append inside ?_
    rw [List.append_nil, List.reverse_append]
    -- a closing bracket ends an atom outside the pair it belongs to, anything else where it stands
    obtain closing | plain := endsAtom_cases ends
    · have level : k = 1 := by
        obtain ⟨opening, -⟩ | ⟨-, e, same, ended⟩ | ⟨-, other, -⟩ := depthFrom_cons_eq_some last
        · rw [not_isOpening_of_isClosing closing] at opening
          contradiction
        · cases ended
          exact same
        · rw [closing] at other
          contradiction
      subst level
      rw [List.singleton_append, cutsFrom_closing closing]
      simp [juncture, starts]
    · have level : k = 0 := by
        rw [depthFrom_other plain.opening plain.closing] at last
        cases last
        rfl
      subst level
      rw [List.singleton_append, cutsFrom_plain plain]
      simp [juncture, ends, starts]

/-- A cut is behind what was scanned before. -/
theorem length_le_of_mem_cutsFrom (h : cut ∈ cutsFrom d before rest) :
    before.length ≤ cut.behind.length := by
  induction rest generalizing d before with
  | nil => contradiction
  | cons c rest ih =>
    rw [mem_cutsFrom_cons rfl] at h
    obtain ⟨-, h⟩ | h := h
    · have := length_behind_of_cutAt? h
      omega
    · have := ih h
      rw [List.length_cons] at this
      omega

/-- The cuts are met from left to right. -/
theorem pairwise_cutsFrom (d : Nat) (before rest : List Char) :
    (cutsFrom d before rest).Pairwise fun k k' => k.behind.length ≤ k'.behind.length := by
  induction rest generalizing d before with
  | nil => exact .nil
  | cons c rest ih =>
    rw [cutsFrom]
    generalize (if isClosing c then d - 1 else d) = level
    refine List.pairwise_append.2 ⟨?_, ih _ _, ?_⟩
    · split
      · cases cutAt? before c rest <;> simp
      · exact .nil
    · intro k hk k' hk'
      have met : cutAt? before c rest = some k := by
        split at hk
        · exact Option.mem_toList.1 hk
        · contradiction
      have near := (length_behind_of_cutAt? met).2
      have far := length_le_of_mem_cutsFrom hk'
      rw [List.length_cons] at far
      omega

end Scan

section Order

theorem Mark.looseness_le (mark : Mark) : mark.looseness ≤ 4 := by
  cases mark with
  | sign op => cases op <;> decide
  | junction | call => decide

/-- Every operation has its own sign. -/
theorem sign_injective {op op' : Op} (h : op.sign = op'.sign) : op = op' := by
  have same := congrArg Op.ofSign? h
  rw [Op.ofSign?_sign, Op.ofSign?_sign] at same
  exact Option.some.inj same

/-- Candidates that are equally loose stand in different places. -/
theorem Candidate.eq_of_length (h : Candidate text mark a b) (h' : Candidate text mark' a' b')
    (loose : mark'.looseness = mark.looseness) (place : a'.length = a.length) :
    mark' = mark ∧ a' = a ∧ b' = b := by
  cases h with
  | sign op same =>
    cases h' with
    | sign op' same' =>
      obtain ⟨rfl, behind⟩ := List.append_inj (same'.symm.trans same) place
      obtain ⟨signs, rfl⟩ := List.cons.inj behind
      exact ⟨congrArg Mark.sign (sign_injective signs), rfl, rfl⟩
    | call => exact absurd loose (by cases op <;> decide)
    | junction same' _ _ starts =>
      obtain ⟨-, behind⟩ := List.append_inj (same'.symm.trans same) place
      rw [(List.cons.inj behind).1, startsAtom_sign] at starts
      contradiction
  | call same =>
    cases h' with
    | sign op' => exact absurd loose (by cases op' <;> decide)
    | call same' =>
      obtain ⟨rfl, behind⟩ := List.append_inj (same'.symm.trans same) place
      exact ⟨rfl, rfl, (List.cons.inj behind).2⟩
    | junction => exact absurd loose (by decide)
  | junction same _ _ starts =>
    cases h' with
    | sign op' same' =>
      obtain ⟨-, behind⟩ := List.append_inj (same'.symm.trans same) place
      rw [← (List.cons.inj behind).1, startsAtom_sign] at starts
      contradiction
    | call => exact absurd loose (by decide)
    | junction same' =>
      obtain ⟨front, behind⟩ := List.append_inj (same'.symm.trans same) place
      exact ⟨rfl, front, behind⟩

/-- The cut that is picked is the loosest candidate. -/
theorem loosest_of_loosest? (balanced : depthFrom 0 text = some 0)
    (found : loosest? (cuts text) = some cut) : Loosest text cut.mark cut.before cut.after := by
  obtain ⟨left, right, all, noLooser, tighter⟩ := exists_append_of_loosest? found
  have candidate := candidate_of_mem_cuts balanced (mem_of_loosest? found)
  have ordered := pairwise_cutsFrom 0 [] text
  rw [← cuts, all] at ordered
  obtain ⟨-, -, leftOf⟩ := List.pairwise_append.1 ordered
  refine ⟨candidate, ?_⟩
  intro mark a b other
  have met := mem_cuts_of_candidate balanced other
  rw [all] at met
  rcases List.mem_append.1 met with met | met
  · have loose : mark.looseness ≤ cut.mark.looseness := noLooser _ met
    have place := leftOf _ met cut (List.mem_cons_self ..)
    by_cases same : mark.looseness = cut.mark.looseness ∧ a.length = cut.before.length
    · exact .inl (candidate.eq_of_length other same.1 same.2)
    · simp only [Cut.before, List.length_reverse] at place same ⊢
      omega
  · rcases List.mem_cons.1 met with rfl | met
    · exact .inl ⟨rfl, (List.reverse_reverse a).symm, rfl⟩
    · exact .inr (.inl (tighter _ met))

end Order

section Split

theorem not_mismatched_iff : ¬Mismatched text ↔ depthFrom 0 text = some 0 := by
  rw [mismatched_iff, not_not]

/-- A candidate at a sign leaves two balanced halves around it. -/
theorem Candidate.halves_sign {op : Op} (balanced : depthFrom 0 text = some 0)
    (h : Candidate text (.sign op) a b) : text = a ++ op.sign :: b ∧ Halves text a b := by
  cases h with
  | sign _ same level =>
    subst same
    obtain ⟨front, behind⟩ := depthFrom_of_level balanced level
    rw [depthFrom_sign] at behind
    rw [← not_mismatched_iff] at front behind
    exact ⟨rfl, front, behind, by simp, by simp; omega⟩

/-- A candidate between two characters leaves two balanced halves and nothing else. -/
theorem Candidate.halves_junction (balanced : depthFrom 0 text = some 0)
    (h : Candidate text .junction a b) : text = a ++ b ∧ Halves text a b := by
  cases h with
  | junction same level =>
    subst same
    obtain ⟨front, behind⟩ := depthFrom_of_level balanced level
    rw [← not_mismatched_iff] at front behind
    exact ⟨rfl, front, behind, by simp, by simp; omega⟩

/-- A matched text is split at its loosest candidate, the rightmost of several, and nothing is lost:
it is the two parts with the mark between them, and each operand is one of the parts without the
brackets around it. A sign in front of everything leaves the part behind it; a call leaves a name
and what is in its bracket. A text without a candidate is left as it is. -/
theorem split_loosest {text : List Char} (nonempty : text ≠ []) (matched : ¬Mismatched text) :
    (∀ mark a b, ¬Candidate text mark a b) ∧ split text = .ok (.atom text) ∨
      ∃ mark a b, Loosest text mark a b ∧
        match mark with
        | .sign op =>
          text = a ++ op.sign :: b ∧ Halves text a b ∧
            split text = .ok (if op = .sub ∧ a = [] then .negate (unwrap b)
              else .binary op (unwrap a) (unwrap b))
        | .junction =>
          text = a ++ b ∧ Halves text a b ∧ split text = .ok (.binary .mul (unwrap a) (unwrap b))
        | .call => split text = .ok (.call (unwrap a) (unwrap b.dropLast)) := by
  have balanced := not_mismatched_iff.1 matched
  have whole : isBalanced text = true := decide_eq_true balanced
  rw [split, if_neg nonempty, if_pos whole]
  cases found : loosest? (cuts text) with
  | none =>
    refine .inl ⟨?_, rfl⟩
    intro mark a b candidate
    have met := mem_cuts_of_candidate balanced candidate
    rw [loosest?_eq_none found] at met
    contradiction
  | some cut =>
    have loosest := loosest_of_loosest? balanced found
    refine .inr ⟨cut.mark, cut.before, cut.after, loosest, ?_⟩
    obtain ⟨mark, behind, b⟩ := cut
    have candidate := loosest.candidate
    cases mark with
    | sign op =>
      obtain ⟨same, halves⟩ := candidate.halves_sign balanced
      exact ⟨same, halves, rfl⟩
    | junction =>
      obtain ⟨same, halves⟩ := candidate.halves_junction balanced
      exact ⟨same, halves, rfl⟩
    | call => rfl

/-- In `-x*(y-1)+z` the sign in front and the one before `z` are equally loose, and the one between
the brackets is no candidate: the text is cut before `z`. -/
theorem split_loosest_last_sum :
    let front := ['-', 'x', '*', '(', 'y', '-', '1', ')']
    let text := front ++ ['+', 'z']
    text ≠ [] ∧ ¬Mismatched text ∧ Loosest text (.sign .add) front ['z'] ∧
      Halves text front ['z'] ∧ split text = .ok (.binary .add front ['z']) := by
  intro front text
  have nonempty : text ≠ [] := by simp [text]
  have matched : ¬Mismatched text := not_mismatched_iff.2 (by decide)
  have last : Candidate text (.sign .add) front ['z'] := .sign .add rfl (by decide)
  refine ⟨nonempty, matched, ?_⟩
  obtain ⟨none, -⟩ | ⟨mark, a, b, loosest, cut⟩ := split_loosest nonempty matched
  · exact absurd last (none _ _ _)
  · have bound := mark.looseness_le
    obtain ⟨rfl, rfl, rfl⟩ | looser | ⟨same, behind⟩ := loosest.best last
    · exact ⟨loosest, cut.2⟩
    · have four : Mark.looseness (.sign .add) = 4 := rfl
      omega
    · -- behind the sign before `z` there is `z` alone, which is no sign
      exfalso
      cases loosest.candidate with
      | @sign op a b whole level =>
        have length : 10 = (a ++ op.sign :: b).length := congrArg List.length whole
        have eight : front.length = 8 := rfl
        rw [List.length_append, List.length_cons] at length
        obtain rfl : b = [] := List.eq_nil_of_length_eq_zero (by omega)
        have final : some 'z' = (a ++ [op.sign]).getLast? := congrArg List.getLast? whole
        rw [List.getLast?_concat] at final
        revert final
        cases op <;> decide
      | call | junction => contradiction

end Split

end Fluxion.Text
