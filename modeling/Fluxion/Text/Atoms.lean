import Fluxion.Expr.Basic
import Fluxion.Text.Brackets
import Fluxion.Unicode.Digit
import Fluxion.Unicode.Letter

/-!
# Where atoms end and begin

A product may be written without a sign, as in `2x` or `x(y+1)`. It stands where a character
that ends an atom meets one that starts an atom. A run of the letters `x`, `y`, `z` is a
product of variables unless it continues a name: `xyz` is three factors, but the `y` of
`myFunc` is none.
-/

namespace Fluxion.Text
set_option autoImplicit false
open Fluxion.Unicode

/-- Whether a character names an axis. -/
def isAxisLetter (c : Char) : Bool := (Axis.ofLetter? c).isSome

/-- Whether a character is the sign of an operation. -/
def isSign (c : Char) : Bool := (Op.ofSign? c).isSome

/-- Whether the character `c` after the reversed text `before` is a variable, and no part of
a name. -/
def isFactor (before : List Char) (c : Char) : Bool :=
  isAxisLetter c &&
    match before.dropWhile isAxisLetter with
    | [] => true
    | d :: _ => !isLetter d

/-- Whether the character `c` after the reversed text `before` ends an atom. -/
def endsAtom (before : List Char) (c : Char) : Bool :=
  isDigit c || isClosing c || isFactor before c

/-- Whether a character starts an atom. -/
def startsAtom (c : Char) : Bool := !isDigit c && c != '.' && !isSign c

/-- What a character of a text can do. -/
structure Role where
  endsAtom : Bool
  startsAtom : Bool
  isFactor : Bool
  deriving DecidableEq, Repr

/-- The roles of the characters after the reversed text `before`. -/
def rolesFrom (before : List Char) : List Char → List Role
  | [] => []
  | c :: rest =>
    ⟨endsAtom before c, startsAtom c, isFactor before c⟩ :: rolesFrom (c :: before) rest

/-- The role of every character of a text. -/
def roles (text : List Char) : List Role := rolesFrom [] text

end Fluxion.Text
