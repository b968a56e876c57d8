/-!
# The order of texts

Texts are ordered by the code points of their characters, the first difference deciding.
-/

namespace Fluxion.Text
set_option autoImplicit false

/-- Whether one text comes before another. -/
def isBefore : List Char → List Char → Bool
  | [], [] => false
  | [], _ :: _ => true
  | _ :: _, [] => false
  | a :: as, b :: bs => a.toNat < b.toNat || a.toNat = b.toNat && isBefore as bs

/-- Named entries in the order of their names. -/
def sortedByName {α : Type} (entries : List (List Char × α)) : List (List Char × α) :=
  entries.mergeSort fun a b => !isBefore b.1 a.1

end Fluxion.Text
