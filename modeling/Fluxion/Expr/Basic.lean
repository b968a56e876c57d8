import Fluxion.Position

/-!
# Expressions

The tree language: variables, the constants `e` and `pi`, exact fractions, the five
operations that join two trees, and twenty named functions of one argument. A tree may
also hold the marker `comp`, which stands for a call that was never resolved; no
finished tree holds one.
-/

namespace Fluxion
set_option autoImplicit false

/-- A coordinate axis. -/
inductive Axis where
  | x | y | z
  deriving DecidableEq, Repr

namespace Axis

/-- The axes in order. -/
def all : List Axis := [.x, .y, .z]

/-- The letter of the axis. -/
def letter : Axis → Char
  | .x => 'x'
  | .y => 'y'
  | .z => 'z'

/-- The place of the axis among `all`. -/
def index : Axis → Nat
  | .x => 0
  | .y => 1
  | .z => 2

/-- The axis at a position of `all`, negative positions counting from the end. -/
def ofPosition? (i : Int) : Option Axis := itemAt? all i

/-- The axis that a letter names. -/
def ofLetter? (c : Char) : Option Axis :=
  if c = 'x' then some .x else if c = 'y' then some .y else if c = 'z' then some .z else none

end Axis

/-- An operation that joins two trees. -/
inductive Op where
  | add | sub | mul | div | pow
  deriving DecidableEq, Repr

namespace Op

/-- The sign that is written between the two operands. -/
def sign : Op → Char
  | .add => '+'
  | .sub => '-'
  | .mul => '*'
  | .div => '/'
  | .pow => '^'

/-- The operation of a sign. -/
def ofSign? (c : Char) : Option Op :=
  if c = '+' then some .add
  else if c = '-' then some .sub
  else if c = '*' then some .mul
  else if c = '/' then some .div
  else if c = '^' then some .pow
  else none

theorem ofSign?_sign (op : Op) : ofSign? op.sign = some op := by
  cases op <;> decide

theorem sign_of_ofSign? {c : Char} {op : Op} (h : ofSign? c = some op) : op.sign = c := by
  unfold ofSign? at h
  repeat (first | (split at h; · simp_all [← Option.some.inj h, sign]) | simp at h)

end Op

/-- A named function of one argument. -/
inductive Kind where
  | sin | cos | tan | cot | sec | csc
  | asin | acos | atan
  | sinh | cosh | tanh | coth | sech | csch
  | asinh | acosh | atanh
  | abs | ln
  deriving DecidableEq, Repr

namespace Kind

/-- The letters of the name. -/
def letters : Kind → List Char
  | .sin => ['s', 'i', 'n']
  | .cos => ['c', 'o', 's']
  | .tan => ['t', 'a', 'n']
  | .cot => ['c', 'o', 't']
  | .sec => ['s', 'e', 'c']
  | .csc => ['c', 's', 'c']
  | .asin => ['a', 's', 'i', 'n']
  | .acos => ['a', 'c', 'o', 's']
  | .atan => ['a', 't', 'a', 'n']
  | .sinh => ['s', 'i', 'n', 'h']
  | .cosh => ['c', 'o', 's', 'h']
  | .tanh => ['t', 'a', 'n', 'h']
  | .coth => ['c', 'o', 't', 'h']
  | .sech => ['s', 'e', 'c', 'h']
  | .csch => ['c', 's', 'c', 'h']
  | .asinh => ['a', 's', 'i', 'n', 'h']
  | .acosh => ['a', 'c', 'o', 's', 'h']
  | .atanh => ['a', 't', 'a', 'n', 'h']
  | .abs => ['a', 'b', 's']
  | .ln => ['l', 'n']

/-- Every kind. -/
def all : List Kind :=
  [.sin, .cos, .tan, .cot, .sec, .csc, .asin, .acos, .atan, .sinh, .cosh, .tanh, .coth, .sech,
    .csch, .asinh, .acosh, .atanh, .abs, .ln]

theorem mem_all (k : Kind) : k ∈ all := by cases k <;> decide

/-- The kind of a name. -/
def ofLetters? (name : List Char) : Option Kind :=
  all.find? fun k => k.letters = name

theorem ofLetters?_letters (k : Kind) : ofLetters? k.letters = some k := by
  cases k <;> decide

theorem letters_of_ofLetters? {name : List Char} {k : Kind} (h : ofLetters? name = some k) :
    k.letters = name := by
  simpa using List.find?_some h

end Kind

/-- A tree of the expression language. -/
inductive Expr where
  /-- The variable of an axis; positions other than those of the three axes name none. -/
  | var (axis : Int)
  /-- The base of the natural logarithm. -/
  | e
  | pi
  /-- An exact fraction. -/
  | const (value : Rat)
  | binary (op : Op) (lhs rhs : Expr)
  /-- The marker of a call that was never resolved. -/
  | comp (lhs rhs : Expr)
  | special (kind : Kind) (arg : Expr)
  deriving DecidableEq, Inhabited

namespace Expr

/-- The number of nodes. -/
def size : Expr → Nat
  | var _ | e | pi | const _ => 1
  | binary _ l r | comp l r => 1 + (l.size + r.size)
  | special _ a => 1 + a.size

theorem size_pos (f : Expr) : 0 < f.size := by
  cases f <;> simp only [size] <;> omega

/-- The direct subtrees, in order. -/
def children : Expr → List Expr
  | var _ | e | pi | const _ => []
  | binary _ l r | comp l r => [l, r]
  | special _ a => [a]

/-- The tree as a constant times a rest: a leading constant factor is split off. -/
def coefficient : Expr → Rat × Expr
  | binary .mul (const c) u => (c, u)
  | u => (1, u)

/-- The tree as a power: its base, which is the tree itself when it is no power. -/
def base : Expr → Expr
  | binary .pow u _ => u
  | u => u

/-- The tree as a power: its exponent, which is `1` when it is no power. -/
def exponent : Expr → Expr
  | binary .pow _ w => w
  | _ => const 1

/-- Whether the tree is a constant. -/
def isConst : Expr → Bool
  | const _ => true
  | _ => false

/-- The value of a constant. -/
def constValue? : Expr → Option Rat
  | const c => some c
  | _ => none

theorem isConst_of_constValue? {f : Expr} (h : f.constValue? = none) : f.isConst = false := by
  cases f <;> simp_all [constValue?, isConst]

/-- Whether the tree joins two trees by `op`. -/
def isBinary (op : Op) : Expr → Bool
  | binary o _ _ => o = op
  | _ => false

/-- Whether the tree is a call of `kind`. -/
def isSpecial (kind : Kind) : Expr → Bool
  | special k _ => k = kind
  | _ => false

end Expr

end Fluxion
