import Mathlib.Logic.Function.Iterate
import Fluxion.Proofs.Canonical
import Fluxion.Proofs.Soundness

/-!
# The sizes of the trees that the constructors make

The rules build more than they were given before they fold it: the double of a term, a constant in
front of a numerator, the square of a constant in front of a power. In the end no constructor makes
a tree of canonical ones that is larger than the plain operation (`size_apply_le`). The size itself
is no tally, as a pole can appear in front of a power; but only a multiple by zero has one to give,
and there is none in a canonical tree. `paddedSize` counts it.

A tree that is doubled again and again, or squared, need not keep its size: a coefficient becomes
one and vanishes, a root of a multiple is unfolded, and the shape that is left can grow again. What
never grows is the room that all its multiples, or all its squares, have to share (`room_scale_le`,
`squareRoom_square_le`). It is two nodes more than the tree at most (`size_iterate_le`).
-/

namespace Fluxion.Expr
set_option autoImplicit false

namespace Tally

variable {leaf node : Nat} {μ : Expr → Nat} {f g h : Expr}

/-- What is left when the constant factor is split off tallies no more. -/
theorem coefficient (T : Tally leaf node μ) (f : Expr) : μ (coefficient f).2 ≤ μ f := by
  unfold Expr.coefficient
  split
  · rename_i c u
    exact Nat.le_trans (Nat.le_trans (Nat.le_add_left ..) (Nat.le_add_left ..)) (T.le_multiple c u)
  · exact Nat.le_refl _

/-- Like terms are collected under one coefficient, so the second tree is gone. -/
theorem collect (T : Tally leaf node μ) {op : Op} (merge : Rat → Rat → Rat)
    (plain : μ (binary op f g) = node + (μ f + μ g)) :
    μ (collect op merge f g) ≤ node + (μ f + μ g) := by
  have := T.least g
  have := T.coefficient f
  unfold Expr.collect
  split
  · have := T.scale (merge (Expr.coefficient f).1 (Expr.coefficient g).1) (Expr.coefficient f).2
    omega
  · exact Nat.le_of_eq plain

/-- By the rules of subtraction: each of them drops a tree, or nests one difference less. -/
theorem of_subtracts (T : Tally leaf node μ) (rules : Subtracts f g h) :
    μ h ≤ node + (μ f + μ g) := by
  induction rules with
  | zero f => omega
  | same f =>
    have := T.least f
    rw [T.const]
    omega
  | constants =>
    simp only [T.const]
    omega
  | negated g =>
    have := T.scale (-1) g
    simp only [T.const]
    exact this
  | firstSummand l r | secondSummand l r =>
    rw [T.sum]
    omega
  | minuend l r =>
    have := T.scale (-1) r
    have := T.least l
    rw [T.difference, neg]
    omega
  | @subtrahend l r h rest ih =>
    have := T.scale 2 r
    have := T.least r
    rw [T.difference]
    omega
  | collected => exact T.collect _ (T.difference ..)

/-- A difference tallies no more than the node that it could have been. -/
theorem sub (T : Tally leaf node μ) (f g : Expr) : μ (sub f g) ≤ node + (μ f + μ g) :=
  T.of_subtracts (subtracts_sub f g)

/-- By the rules of addition, with the difference that a sum of a difference comes to. -/
theorem of_adds (T : Tally leaf node μ) (rules : Adds f g h) : μ h ≤ node + (μ f + μ g) := by
  induction rules with
  | zeroLeft | zeroRight => omega
  | constants =>
    simp only [T.const]
    omega
  | double f =>
    have := T.scale 2 f
    have := T.least f
    omega
  | @firstSummand l r h rest ih =>
    have := T.scale 2 l
    have := T.least l
    rw [T.sum]
    omega
  | @secondSummand l r h rest ih =>
    have := T.scale 2 r
    have := T.least r
    rw [T.sum]
    omega
  | minuend l r =>
    have := T.scale 2 l
    have := T.sub (Expr.scale 2 l) r
    have := T.least l
    rw [T.difference]
    omega
  | subtrahend l r =>
    rw [T.difference]
    omega
  | collected => exact T.collect _ (T.sum ..)

/-- A sum tallies no more than the node that it could have been. -/
theorem add (T : Tally leaf node μ) (f g : Expr) : μ (add f g) ≤ node + (μ f + μ g) :=
  T.of_adds (adds_add f g)

/-- A constructor tallies no more than the node it could have been, if the power does. -/
theorem apply (T : Tally leaf node μ) (op : Op)
    (power : μ (binary .pow f g) ≤ node + (μ f + μ g)) :
    μ (op.apply f g) ≤ node + (μ f + μ g) := by
  cases op with
  | add => exact T.add f g
  | sub => exact T.sub f g
  | mul => exact T.mul f g
  | div => exact T.div f g
  | pow => exact T.power power (Nat.le_refl _)

end Tally

/-- The number of nodes, where a multiple by zero counts two more than it has. -/
def paddedSize : Expr → Nat
  | var _ | e | pi | const _ => 1
  | binary op l r =>
    1 + (l.paddedSize + r.paddedSize) + if op = .mul ∧ l = const 0 then 2 else 0
  | comp l r => 1 + (l.paddedSize + r.paddedSize)
  | special _ a => 1 + a.paddedSize

/-- The padded size is a tally in which a leaf and a node count one each. -/
theorem tally_paddedSize : Tally 1 1 paddedSize where
  least f := by cases f <;> simp only [paddedSize] <;> omega
  const _ := rfl
  sum l r := by simp [paddedSize]
  difference l r := by simp [paddedSize]
  quotient l r := by simp [paddedSize]
  product hl r := by simp [paddedSize, hl]
  zeroMultiple r := by
    simp only [paddedSize, and_self, if_true]
    omega
  constPower u c := by simp [paddedSize]
  arg k a := Nat.le_add_left ..

theorem size_le_paddedSize (f : Expr) : f.size ≤ f.paddedSize := by
  induction f with
  | var | e | pi | const => exact Nat.le_refl _
  | binary op l r ihl ihr | comp l r ihl ihr =>
    simp only [size, paddedSize]
    omega
  | special k a ih =>
    simp only [size, paddedSize]
    omega

/-- A canonical tree has no multiple by zero. -/
theorem Canonical.paddedSize_eq {f : Expr} (hf : f.Canonical) : f.paddedSize = f.size := by
  induction f with
  | var | e | pi | const => rfl
  | binary op l r ihl ihr =>
    have unpadded : ¬(op = .mul ∧ l = const 0) := by
      rintro ⟨rfl, rfl⟩
      exact hf.coefficient_ne_zero rfl
    rw [paddedSize, size, ihl hf.1, ihr hf.2.1, if_neg unpadded]
    rfl
  | comp => exact hf.elim
  | special k a ih => rw [paddedSize, size, ih hf]

/-- The constructors make no tree of canonical ones that is larger than the plain operation. -/
theorem size_apply_le (op : Op) {f g : Expr} (hf : f.Canonical) (hg : g.Canonical) :
    (op.apply f g).size ≤ 1 + f.size + g.size := by
  have bound := tally_paddedSize.apply (f := f) (g := g) op (by simp [paddedSize])
  rw [hf.paddedSize_eq, hg.paddedSize_eq] at bound
  have := size_le_paddedSize (op.apply f g)
  omega

/-- A summand that is doubled: `(x+y)+x` is `2*x+y`, as large as the plain sum. -/
theorem size_apply_le_doubled :
    let f := binary .add (var 0) (var 1)
    f.Canonical ∧ (var 0).Canonical ∧ (Op.add.apply f (var 0)).size ≤ 1 + f.size + (var 0).size ∧
      Op.add.apply f (var 0) = binary .add (binary .mul (const 2) (var 0)) (var 1) := by
  intro f
  have canonical : f.Canonical := ⟨trivial, trivial, by decide +kernel⟩
  exact ⟨canonical, trivial, size_apply_le .add canonical trivial, by decide +kernel⟩

section Doubling

/-- The nodes that the multiples of a tree need: a constant in front of it, or of the innermost
numerator, makes two more. -/
def room : Expr → Nat
  | const _ => 1
  | binary .mul (const _) h => 2 + h.size
  | binary .div a b => 1 + (a.room + b.size)
  | f => f.size + 2

/-- At most the coefficient and its node are missing from a tree. -/
theorem room_le (f : Expr) : f.room ≤ f.size + 2 := by
  fun_induction room f with
  | case1 => exact Nat.le_add_left ..
  | case2 | case3 =>
    simp only [size]
    omega
  | case4 => exact Nat.le_refl _

theorem size_le_room (f : Expr) : f.size ≤ f.room := by
  fun_induction room f with
  | case1 => exact Nat.le_refl _
  | case2 | case3 =>
    simp only [size]
    omega
  | case4 => exact Nat.le_add_right ..

theorem room_pos (f : Expr) : 0 < f.room := Nat.lt_of_lt_of_le f.size_pos f.size_le_room

/-- A power of constants has at most three nodes, and a multiple two more. -/
theorem room_constPow_le (c r : Rat) : (constPow c r).room ≤ 5 := by
  fun_cases constPow c r <;> simp [room, size]

/-- A quotient has the coefficient of its numerator, so only the numerator counts with its room. -/
theorem room_div_le (f g : Expr) : (div f g).room ≤ 1 + (f.room + g.size) := by
  fun_cases div f g with
  | case1 | case6 => exact Nat.le_refl _
  | case3 => omega
  | case2 | case4 | case5 => exact Nat.le_add_right ..

/-- A multiple needs no more room than the tree. -/
theorem room_scale_le (c : Rat) (g : Expr) : (scale c g).room ≤ g.room := by
  fun_induction scale c g with
  | case1 | case3 | case6 | case10 | case14 => exact Nat.le_refl _
  | case2 | case5 | case9 | case13 => exact room_pos _
  | case4 c d h _ _ ih =>
    have := room_le h
    simp only [room]
    omega
  | case7 c a =>
    simp only [room]
    omega
  | case8 c a b _ _ _ ih =>
    have := room_div_le (scale c a) b
    simp only [room]
    omega
  | case11 c k => exact room_constPow_le c (1 + k)
  | case12 => exact Nat.le_refl _
  | case15 c g notConst notMultiple notQuotient =>
    -- The shapes with less room are taken apart in the other cases.
    have plain : g.room = g.size + 2 := by
      unfold room
      split <;> simp_all
    simp only [room, plain]
    omega

/-- A coefficient is a constant and a node. -/
theorem size_scale_le (c : Rat) (g : Expr) : (scale c g).size ≤ g.size + 2 :=
  Nat.le_trans (size_le_room _) (Nat.le_trans (room_scale_le c g) (room_le g))

/-- However often a tree is doubled, the multiples need no more room than the tree. -/
theorem room_doubles_le (f : Expr) (n : Nat) : ((fun g => add g g)^[n] f).room ≤ f.room := by
  induction n with
  | zero => exact Nat.le_refl _
  | succ n ih =>
    rw [Function.iterate_succ_apply', add_self]
    exact Nat.le_trans (room_scale_le 2 _) ih

end Doubling

section Squaring

/-- The shapes of which a square only changes the constants: the exponent, and the one in front of
the power. -/
def isSettled : Expr → Bool
  | const _ | binary .pow _ (const _) | binary .mul (const _) (binary .pow _ (const _)) => true
  | _ => false

/-- A power of constants keeps its size in a square: its exponent or its value is a constant. -/
theorem isSettled_constPow (c r : Rat) : (constPow c r).isSettled = true := by
  fun_cases constPow c r <;> rfl

/-- A coefficient does not unsettle a tree. -/
theorem isSettled_scale (c : Rat) {g : Expr} (h : g.isSettled = true) :
    (scale c g).isSettled = true := by
  fun_induction scale c g with
  | case1 | case2 | case5 | case9 | case12 | case13 => rfl
  | case3 | case6 | case10 | case14 => exact h
  | case4 c d k _ _ ih =>
    refine ih ?_
    unfold isSettled at h
    split at h <;> simp_all [isSettled]
  | case7 | case8 => contradiction
  | case11 c k => exact isSettled_constPow c (1 + k)
  | case15 c g =>
    unfold isSettled at h
    split at h <;> simp_all [isSettled]

/-- The nodes that the squares of a tree need: the exponent makes two more. -/
def squareRoom (f : Expr) : Nat := if f.isSettled then f.size else f.size + 2

/-- The room for a square holds the tree. -/
theorem size_le_squareRoom (f : Expr) : f.size ≤ f.squareRoom := by
  unfold squareRoom
  split <;> omega

/-- At most the exponent and its node are missing from a tree. -/
theorem squareRoom_le (f : Expr) : f.squareRoom ≤ f.size + 2 := by
  unfold squareRoom
  split <;> omega

/-- A settled tree squares in place. -/
theorem squareRoom_of_settled {f : Expr} (h : f.isSettled = true) : f.squareRoom = f.size :=
  if_pos h

/-- Any other tree gets an exponent. -/
theorem squareRoom_of_unsettled {f : Expr} (h : ¬f.isSettled = true) :
    f.squareRoom = f.size + 2 :=
  if_neg h

/-- A power has its exponent already. -/
@[simp] theorem squareRoom_power (u : Expr) (k : Rat) :
    (binary .pow u (const k)).squareRoom = u.size + 2 := by
  rw [squareRoom_of_settled rfl]
  simp only [size]
  omega

/-- So has a multiple of a power. -/
@[simp] theorem squareRoom_multiple_power (c : Rat) (u : Expr) (k : Rat) :
    (binary .mul (const c) (binary .pow u (const k))).squareRoom = u.size + 4 := by
  rw [squareRoom_of_settled rfl]
  simp only [size]
  omega

/-- A constant in front makes two nodes at most. -/
theorem squareRoom_scale_le (c : Rat) (g : Expr) : (scale c g).squareRoom ≤ g.squareRoom + 2 := by
  have := size_scale_le c g
  by_cases settled : g.isSettled = true
  · rwa [squareRoom_of_settled settled, squareRoom_of_settled (isSettled_scale c settled)]
  · have := squareRoom_le (scale c g)
    rw [squareRoom_of_unsettled settled]
    omega

/-- The square of a power is a power of the same base, so the room is not used twice. -/
theorem squareRoom_powr_le {f : Expr} (hf : f.Canonical) (r : Rat) :
    (powr f r).squareRoom ≤ f.size + 2 := by
  fun_induction powr f r with
  | case1 c r =>
    rw [squareRoom_of_settled (isSettled_constPow c r)]
    fun_cases constPow c r <;> simp [size]
  | case2 | case5 | case10 => exact Nat.le_add_left ..
  | case3 | case6 | case11 => exact squareRoom_le _
  | case4 u c r _ _ ih =>
    have := ih hf.1
    simp only [size]
    omega
  | case7 c u r _ _ _ q _ ih =>
    have := squareRoom_scale_le q (powr u r)
    have := ih hf.2.1
    simp only [size]
    omega
  | case8 c u r _ _ integer kept =>
    -- Only a zero is not folded, and a canonical tree has no multiple by zero.
    exact absurd (constPow_eq_pole integer kept).1 hf.coefficient_ne_zero
  | case9 | case12 => exact Nat.le_of_eq (squareRoom_power ..)

/-- The square of a multiple is a multiple of the square. -/
theorem powr_multiple_two (c : Rat) (u : Expr) :
    powr (binary .mul (const c) u) 2 = scale (c * c) (powr u 2) := by
  rw [powr, if_neg (by decide), if_neg (by decide), if_pos (by rfl), constPow_two]

/-- Squaring a power only changes its exponent. -/
theorem squareRoom_square_power_le {u : Expr} (hu : u.Canonical) (k : Rat) :
    (powr (binary .pow u (const k)) 2).squareRoom ≤ u.size + 2 := by
  rw [powr, if_neg (by decide), if_neg (by decide)]
  exact squareRoom_powr_le hu (k * 2)

/-- A square needs no more room than the tree. -/
theorem squareRoom_square_le {f : Expr} (hf : f.Canonical) :
    (powr f 2).squareRoom ≤ f.squareRoom := by
  fun_cases isSettled f with
  | case1 c =>
    rw [powr, constPow_two]
    exact Nat.le_refl _
  | case2 u k =>
    rw [squareRoom_power]
    exact squareRoom_square_power_le hf.1 k
  | case3 c u k =>
    have square := squareRoom_square_power_le hf.2.1.1 k
    have multiple := squareRoom_scale_le (c * c) (powr (binary .pow u (const k)) 2)
    rw [powr_multiple_two, squareRoom_multiple_power]
    omega
  | case4 =>
    have unsettled : ¬f.isSettled = true := by
      unfold isSettled
      split <;> simp_all
    rw [squareRoom_of_unsettled unsettled]
    exact squareRoom_powr_le hf 2

/-- The product of a tree with itself is its square. -/
theorem mul_self (f : Expr) : mul f f = powr f 2 := by
  fun_cases mul f f with
  | case1 c => rw [scale, powr, constPow_two]
  | case2 c h => simp [mulInto]
  | case3 =>
    fun_cases mulInto f (mergePowers f) f <;> simp_all [mergePowers, over?_eq_none]

/-- However often a canonical tree is squared, the squares are canonical and need no more room than
the tree. -/
theorem squareRoom_squares_le {f : Expr} (hf : f.Canonical) (n : Nat) :
    ((fun g => mul g g)^[n] f).Canonical ∧
      ((fun g => mul g g)^[n] f).squareRoom ≤ f.squareRoom := by
  induction n with
  | zero => exact ⟨hf, Nat.le_refl _⟩
  | succ n ih =>
    obtain ⟨canonical, within⟩ := ih
    rw [Function.iterate_succ_apply', mul_self]
    exact ⟨canonical_powr 2 canonical, Nat.le_trans (squareRoom_square_le canonical) within⟩

end Squaring

/-- Adding a tree to itself, or multiplying it by itself, makes two nodes at most, however often it
is repeated. -/
theorem size_iterate_le {f : Expr} (hf : f.Canonical) (n : Nat) :
    ((fun g => add g g)^[n] f).size ≤ f.size + 2 ∧
      ((fun g => mul g g)^[n] f).size ≤ f.size + 2 := by
  constructor
  · exact Nat.le_trans (size_le_room _) (Nat.le_trans (room_doubles_le f n) (room_le f))
  · obtain ⟨-, within⟩ := squareRoom_squares_le hf n
    exact Nat.le_trans (size_le_squareRoom _) (Nat.le_trans within (squareRoom_le f))

/-- The square of `(4*x)^(1/2)` unfolds the root; the next one makes a power again. -/
theorem size_iterate_le_root :
    let f := binary .pow (binary .mul (const 4) (var 0)) (const (1 / 2))
    let squares := binary .mul (const 16) (binary .pow (var 0) (const 2))
    f.Canonical ∧ (fun g => mul g g)^[2] f = squares ∧
      ((fun g => add g g)^[2] f).size ≤ f.size + 2 ∧ squares.size ≤ f.size + 2 := by
  intro f squares
  have canonical : f.Canonical :=
    ⟨⟨trivial, trivial, by decide +kernel⟩, trivial, by decide +kernel⟩
  have squared : (fun g => mul g g)^[2] f = squares := by decide +kernel
  obtain ⟨doubles, within⟩ := size_iterate_le canonical 2
  rw [squared] at within
  exact ⟨canonical, squared, doubles, within⟩

end Fluxion.Expr
