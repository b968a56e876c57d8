/-!
# Brackets

Three kinds of brackets, interchangeable: any closing bracket closes any opening one. The
*depth* of a text is how many brackets it leaves open; a text is balanced when its depth
never drops below zero and ends there. `unwrap` takes one pair of brackets off a text that
the pair encloses as a whole.
-/

namespace Fluxion.Text
set_option autoImplicit false

/-- Whether a character opens a bracket. -/
def isOpening (c : Char) : Bool := c = '(' || c = '[' || c = '{'

/-- Whether a character closes a bracket. -/
def isClosing (c : Char) : Bool := c = ')' || c = ']' || c = '}'

/-- The depth after a text that starts at depth `d`, unless it drops below zero. -/
def depthFrom (d : Nat) : List Char → Option Nat
  | [] => some d
  | c :: rest =>
    if isOpening c then depthFrom (d + 1) rest
    else if isClosing c then
      match d with
      | 0 => none
      | k + 1 => depthFrom k rest
    else depthFrom d rest

/-- Whether every bracket of a text is closed and every closing bracket closes one. -/
def isBalanced (text : List Char) : Bool := depthFrom 0 text = some 0

/-- Whether the depth stays above zero up to the last character, which is not looked at. -/
def staysOpen (d : Nat) : List Char → Bool
  | [] | [_] => true
  | c :: rest =>
    if isOpening c then staysOpen (d + 1) rest
    else if isClosing c then decide (1 < d) && staysOpen (d - 1) rest
    else staysOpen d rest

/-- The text without the pair of brackets around it, when its first character opens a bracket
that is open up to the last character. -/
def unwrap : List Char → List Char
  | [] => []
  | c :: rest =>
    if isOpening c && !rest.isEmpty && staysOpen 1 rest then rest.dropLast else c :: rest

theorem length_unwrap_le (text : List Char) : (unwrap text).length ≤ text.length := by
  unfold unwrap
  split
  · exact Nat.le_refl _
  · split
    · simp only [List.length_dropLast, List.length_cons]; omega
    · exact Nat.le_refl _

theorem depthFrom_append (d : Nat) (a b : List Char) :
    depthFrom d (a ++ b) = (depthFrom d a).bind fun k => depthFrom k b := by
  induction a generalizing d with
  | nil => rfl
  | cons c rest ih =>
    simp only [List.cons_append, depthFrom]
    split
    · exact ih _
    · split
      · cases d with
        | zero => rfl
        | succ k => exact ih k
      · exact ih d

end Fluxion.Text
