import Fluxion.Expr.Derivative
import Fluxion.Proofs.Sums

/-!
# Properties that the constructors keep

The constructors take trees apart and join the pieces again. A property that an operation hands on
to its operands, and that comes back from the operands wherever a constructor joins them, holds of
whatever the constructor makes, simplified or not. Which joins matter depends on the constructor:
scaling by a constant joins products, quotients and powers of constants (`Scalable`); `add` and
`sub` also join sums (`Additive`), and `mul` also joins powers with constant exponents
(`Multiplicative`). A property of all these joins is *hereditary*, and `power` keeps it too, where
it holds of the plain power of the two operands.

Many properties say something of every subtree. They are handed on by their nature, so only the
joins are left to check (`scalable_all`).
-/

namespace Fluxion.Expr
set_option autoImplicit false

/-- The tree and everything in it. -/
def subtrees : Expr → List Expr
  | binary op l r => binary op l r :: (l.subtrees ++ r.subtrees)
  | comp l r => comp l r :: (l.subtrees ++ r.subtrees)
  | special k a => special k a :: a.subtrees
  | f => [f]

/-- A tree is among its own subtrees. -/
theorem mem_subtrees_self (f : Expr) : f ∈ f.subtrees := by
  cases f <;> simp [subtrees]

/-- The subtrees of a subtree are subtrees. -/
theorem subtrees_trans {f g h : Expr} (inner : f ∈ g.subtrees) (outer : g ∈ h.subtrees) :
    f ∈ h.subtrees := by
  induction h with
  | var | e | pi | const =>
    obtain rfl := List.mem_singleton.1 outer
    exact inner
  | binary op l r ihl ihr | comp l r ihl ihr =>
    rcases List.mem_cons.1 outer with rfl | outer
    · exact inner
    · rcases List.mem_append.1 outer with outer | outer
      · exact .tail _ (List.mem_append_left _ (ihl outer))
      · exact .tail _ (List.mem_append_right _ (ihr outer))
  | special k a ih =>
    rcases List.mem_cons.1 outer with rfl | outer
    · exact inner
    · exact .tail _ (ih outer)

/-- Every subtree satisfies `Q`. -/
def All (Q : Expr → Prop) (f : Expr) : Prop := ∀ s ∈ f.subtrees, Q s

section All

variable {Q : Expr → Prop}

/-- What holds of all subtrees holds of the tree. -/
theorem All.self {f : Expr} (h : All Q f) : Q f := h f (mem_subtrees_self f)

theorem All.mono {Q' : Expr → Prop} {f : Expr} (h : All Q f) (weaker : ∀ s, Q s → Q' s) :
    All Q' f :=
  fun s hs => weaker s (h s hs)

/-- The subtrees of a subtree have what all subtrees have. -/
theorem all_of_mem {f s : Expr} (h : All Q f) (hs : s ∈ f.subtrees) : All Q s :=
  fun t ht => h t (subtrees_trans ht hs)

theorem lhs_mem_subtrees (op : Op) (l r : Expr) : l ∈ (binary op l r).subtrees :=
  .tail _ (List.mem_append_left _ (mem_subtrees_self l))

theorem rhs_mem_subtrees (op : Op) (l r : Expr) : r ∈ (binary op l r).subtrees :=
  .tail _ (List.mem_append_right _ (mem_subtrees_self r))

theorem arg_mem_subtrees (k : Kind) (a : Expr) : a ∈ (special k a).subtrees :=
  .tail _ (mem_subtrees_self a)

theorem all_const {c : Rat} : All Q (const c) ↔ Q (const c) := by
  constructor
  · exact All.self
  · intro h s hs
    obtain rfl := List.mem_singleton.1 hs
    exact h

/-- At an operation: the node itself, and all that is below its operands. -/
theorem all_binary {op : Op} {l r : Expr} :
    All Q (binary op l r) ↔ Q (binary op l r) ∧ All Q l ∧ All Q r := by
  constructor
  · intro h
    exact ⟨h.self, all_of_mem h (lhs_mem_subtrees ..), all_of_mem h (rhs_mem_subtrees ..)⟩
  · rintro ⟨self, hl, hr⟩ s hs
    rcases List.mem_cons.1 hs with rfl | hs
    · exact self
    · exact (List.mem_append.1 hs).elim (hl s) (hr s)

/-- At a call: the node itself, and all that is below its argument. -/
theorem all_special {k : Kind} {a : Expr} :
    All Q (special k a) ↔ Q (special k a) ∧ All Q a := by
  constructor
  · intro h
    exact ⟨h.self, all_of_mem h (arg_mem_subtrees ..)⟩
  · rintro ⟨self, ha⟩ s hs
    rcases List.mem_cons.1 hs with rfl | hs
    · exact self
    · exact ha s hs

end All

/-- What passes between an operation and its operands when a tree is scaled by a constant. -/
structure Scalable (P : Expr → Prop) : Prop where
  const : ∀ c, P (const c)
  lhs : ∀ {op l r}, P (binary op l r) → P l
  rhs : ∀ {op l r}, P (binary op l r) → P r
  arg : ∀ {k a}, P (special k a) → P a
  product : ∀ {l r}, P l → P r → P (binary .mul l r)
  /-- A quotient may get another numerator. -/
  quotient : ∀ {a l r}, P (binary .div a r) → P l → P (binary .div l r)
  /-- A power of constants that is not folded. -/
  surd : ∀ {c r}, constPow c r = binary .pow (Expr.const c) (Expr.const r) →
    P (binary .pow (Expr.const c) (Expr.const r))

/-- What passes between an operation and its operands when sums are simplified. -/
structure Additive (P : Expr → Prop) : Prop extends Scalable P where
  sum : ∀ {l r}, P l → P r → P (binary .add l r)
  difference : ∀ {l r}, P l → P r → P (binary .sub l r)

/-- What passes between an operation and its operands when products are simplified. -/
structure Multiplicative (P : Expr → Prop) : Prop extends Scalable P where
  constPower : ∀ {u}, P u → ∀ r, P (binary .pow u (Expr.const r))

/-- A property that constants have and that passes between an operation and its operands. -/
structure Hereditary (P : Expr → Prop) : Prop extends Additive P, Multiplicative P

/-- A property of all subtrees is handed on to the operands. -/
theorem scalable_all {Q : Expr → Prop} (const : ∀ c, Q (const c))
    (product : ∀ l r, Q (binary .mul l r))
    (quotient : ∀ {a l r}, Q (binary .div a r) → Q (binary .div l r))
    (surd : ∀ {c r}, constPow c r = binary .pow (Expr.const c) (Expr.const r) →
      Q (binary .pow (Expr.const c) (Expr.const r))) : Scalable (All Q) where
  const c := all_const.2 (const c)
  lhs h := (all_binary.1 h).2.1
  rhs h := (all_binary.1 h).2.2
  arg h := (all_special.1 h).2
  product hl hr := all_binary.2 ⟨product .., hl, hr⟩
  quotient h hl := all_binary.2 ⟨quotient h.self, hl, (all_binary.1 h).2.2⟩
  surd h := all_binary.2 ⟨surd h, all_const.2 (const _), all_const.2 (const _)⟩

variable {P : Expr → Prop} {f g h : Expr}

namespace Scalable

/-- A quotient of two trees is their plain quotient, the numerator or a constant. -/
theorem div (H : Scalable P) (plain : P (binary .div f g)) : P (div f g) := by
  fun_cases Expr.div f g with
  | case1 | case6 => exact plain
  | case2 | case4 | case5 => exact H.const _
  | case3 => exact H.lhs plain

/-- A power of constants is a constant or a plain power. -/
theorem constPow (H : Scalable P) (c r : Rat) : P (constPow c r) := by
  fun_cases Expr.constPow c r with
  | case4 h0 h1 kept => exact H.surd (by simp [Expr.constPow, h0, h1, kept])
  | _ => exact H.const _

/-- A multiple keeps what multiples and quotients keep. -/
theorem scale (H : Scalable P) (c : Rat) (hg : P g) : P (scale c g) := by
  fun_induction Expr.scale c g with
  | case3 | case6 | case10 | case14 => exact hg
  | case4 c d h _ _ ih => exact ih (H.rhs hg)
  | case7 c a => exact H.lhs hg
  | case8 c a b _ _ _ ih => exact H.div (H.quotient hg (ih (H.lhs hg)))
  | case11 => exact H.constPow ..
  | case12 | case15 => exact H.product (H.const _) hg
  | _ => exact H.const _

theorem neg (H : Scalable P) (hf : P f) : P (neg f) := H.scale _ hf

/-- A quotient that is taken back leaves its numerator. -/
theorem of_over? (H : Scalable P) {x : Expr} (h : over? g f = some x) (hf : P f) : P x := by
  obtain rfl := over?_eq_some h
  exact H.lhs hf

theorem coefficient (H : Scalable P) (hf : P f) : P (coefficient f).2 := by
  unfold Expr.coefficient
  split
  · exact H.rhs hf
  · exact hf

end Scalable

namespace Additive

/-- Like terms make a multiple, and others the plain node. -/
theorem collect (H : Additive P) {op : Op} {merge : Rat → Rat → Rat} (hf : P f)
    (plain : P (binary op f g)) : P (collect op merge f g) := by
  unfold Expr.collect
  split
  · exact H.scale _ (H.coefficient hf)
  · exact plain

theorem of_subtracts (H : Additive P) (rules : Subtracts f g h) (hf : P f) (hg : P g) : P h := by
  induction rules with
  | zero => exact hf
  | same | constants => exact H.const _
  | negated => exact H.neg hg
  | firstSummand => exact H.rhs hf
  | secondSummand => exact H.lhs hf
  | minuend => exact H.neg (H.rhs hf)
  | subtrahend _ ih => exact ih (H.lhs hf) (H.scale 2 hg)
  | collected => exact H.collect hf (H.difference hf hg)

theorem sub (H : Additive P) (hf : P f) (hg : P g) : P (sub f g) :=
  H.of_subtracts (subtracts_sub f g) hf hg

theorem of_adds (H : Additive P) (rules : Adds f g h) (hf : P f) (hg : P g) : P h := by
  induction rules with
  | zeroLeft => exact hg
  | zeroRight => exact hf
  | constants => exact H.const _
  | double => exact H.scale 2 hf
  | firstSummand _ ih => exact ih (H.scale 2 hg) (H.rhs hf)
  | secondSummand _ ih => exact ih (H.scale 2 hg) (H.lhs hf)
  | minuend => exact H.sub (H.scale 2 hg) (H.rhs hf)
  | subtrahend => exact H.lhs hf
  | collected => exact H.collect hf (H.sum hf hg)

theorem add (H : Additive P) (hf : P f) (hg : P g) : P (add f g) :=
  H.of_adds (adds_add f g) hf hg

end Additive

namespace Multiplicative

/-- A product that cancels leaves a part of a factor, and any other is the plain one. -/
theorem mulInto (H : Multiplicative P) {plain : Expr → Expr} (hf : P f)
    (hp : ∀ k, P k → P (plain k)) (hg : P g) : P (mulInto f plain g) := by
  fun_induction Expr.mulInto f plain g with
  | case1 c => exact H.scale c hf
  | case2 | case6 | case10 => exact hp _ hg
  | case3 => exact H.lhs hg
  | case4 _ _ _ _ _ h | case7 _ _ _ _ h | case9 _ _ _ _ _ h => exact H.of_over? h hf
  | case5 a b _ _ _ ih => exact H.div (H.quotient hg (ih (H.lhs hg)))
  | case8 d h _ _ ih => exact H.scale d (ih (H.rhs hg))

theorem pole (H : Multiplicative P) (r : Rat) : P (pole r) := H.constPower (H.const 0) r

/-- A power of zero joins another one or stays beside the factor. -/
theorem joinPole (H : Multiplicative P) (r : Rat) (hg : P g) : P (joinPole r g) := by
  fun_cases Expr.joinPole r g with
  | case1 => exact H.constPow ..
  | _ => exact H.product (H.pole r) hg

/-- A power with a constant exponent, by recursion on the base. -/
theorem powr (H : Multiplicative P) (r : Rat) (hf : P f) : P (powr f r) := by
  fun_induction Expr.powr f r with
  | case1 c r => exact H.constPow c r
  | case3 | case6 | case11 => exact hf
  | case4 u c r _ _ ih => exact ih (H.lhs hf)
  | case7 c u r _ _ _ q _ ih => exact H.scale q (ih (H.rhs hf))
  | case8 c u r _ _ _ _ ih =>
    exact H.mulInto (H.pole r) (fun k => H.joinPole r) (ih (H.rhs hf))
  | case9 | case12 => exact H.constPower hf _
  | _ => exact H.const _

theorem base (H : Multiplicative P) (hf : P f) : P (base f) := by
  unfold Expr.base
  split
  · exact H.lhs hf
  · exact hf

/-- Powers of one base make a power, and others the plain node. -/
theorem mergePowers (H : Multiplicative P) (hf : P f) (hg : P g) : P (mergePowers f g) := by
  fun_cases Expr.mergePowers f g with
  | case1 => exact H.powr 2 hf
  | case2 => exact H.powr _ (H.base hf)
  | _ => exact H.product hf hg

/-- A product, by recursion on the left factor. -/
theorem mul (H : Multiplicative P) (hf : P f) (hg : P g) : P (mul f g) := by
  fun_induction Expr.mul f g with
  | case1 c g => exact H.scale c hg
  | case2 c h g ih =>
    refine H.mulInto hf ?_ hg
    intro k hk
    split
    · exact H.powr 2 hf
    · exact H.scale c (ih k (H.rhs hf) hk)
  | case3 f g => exact H.mulInto hf (fun k => H.mergePowers hf) hg

/-- A power of two trees is their plain power or comes from the pieces of the exponent. -/
theorem power (H : Multiplicative P) (hf : P f) (hg : P g) (plain : P (binary .pow f g)) :
    P (power f g) := by
  fun_cases Expr.power f g with
  | case1 r => exact H.powr r hf
  | case2 => exact hf
  | case3 => exact H.arg hg
  | case4 => exact H.powr _ (H.arg (H.rhs hg))
  | _ => exact plain

end Multiplicative

end Fluxion.Expr
