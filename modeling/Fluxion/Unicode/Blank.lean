import Fluxion.Unicode.Ranges

/-!
# Blank characters

The characters of the property `White_Space` and the four separators U+001C to U+001F.
-/

namespace Fluxion.Unicode
set_option autoImplicit false

/-- The ranges of blank characters. -/
def blankRanges : List (Nat × Nat) := [
  (0x0009, 0x000D), (0x001C, 0x0020), (0x0085, 0x0085), (0x00A0, 0x00A0), (0x1680, 0x1680),
  (0x2000, 0x200A), (0x2028, 0x2029), (0x202F, 0x202F), (0x205F, 0x205F), (0x3000, 0x3000)]

/-- Whether a character is blank. -/
def isBlank (c : Char) : Bool := inRanges blankRanges c

end Fluxion.Unicode
