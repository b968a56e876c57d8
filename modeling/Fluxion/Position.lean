/-!
# Positions in a sequence

A position in a sequence of `n` items is an integer: `0, 1, ...` counts from the
front and `-1, -2, ...` from the end. `position? n i` is the place it names, if any.
-/

namespace Fluxion
set_option autoImplicit false

/-- The place that the position `i` names in a sequence of `n` items. -/
def position? (n : Nat) (i : Int) : Option Nat :=
  if 0 ≤ i then
    if i.toNat < n then some i.toNat else none
  else
    if (-i).toNat ≤ n then some (n - (-i).toNat) else none

/-- The item of `items` at the position `i`. -/
def itemAt? {α : Type} (items : List α) (i : Int) : Option α :=
  (position? items.length i).bind fun k => items[k]?

theorem position?_ofNat {n k : Nat} (h : k < n) : position? n (k : Int) = some k := by
  simp [position?, h]

end Fluxion
