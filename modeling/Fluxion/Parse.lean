import Fluxion.Context
import Fluxion.Literal
import Fluxion.Unicode.Blank

/-!
# Reading expressions

`parse` reads a text without blanks: a registered name stands for its entry, any other text is
split at its loosest operation and the parts are read. A call of a named function applies it;
when its argument is no expression, or when the name is no named function, the call stands for
the registered function of that name, whatever the argument. A literal with too many digits is
never made up for. `build` removes the blanks first.

`splits` lists how a text was taken apart, in the order of reading, up to the first failure.
-/

namespace Fluxion
set_option autoImplicit false
open Fluxion.Text

/-- The tree of a registered function, which may use at most `dim` variables. -/
def registered (ctx : Context) (dim : Nat) (name : List Char) : Outcome Expr :=
  match ctx.function? name with
  | none => .error (.parse (.unknownToken name))
  | some entry =>
    if dim < entry.arity then .error (.parse (.dimensionMismatch name)) else .ok entry.tree

/-- The variable that a token names among the first `dim` axes. -/
def axisVariable? (dim : Nat) : List Char → Option Expr
  | [c] =>
    match Axis.ofLetter? c with
    | some a => if a.index < dim then some (.var a.index) else none
    | none => none
  | _ => none

/-- The tree of a token that is not split further. -/
def atom (ctx : Context) (dim : Nat) (token : List Char) : Outcome Expr :=
  match axisVariable? dim token with
  | some f => .ok f
  | none =>
    if token = ['e'] then .ok .e
    else if token = ['p', 'i'] then .ok .pi
    else match Literal.read token with
      | .error fault => .error fault
      | .ok (some q) => .ok (.const q)
      | .ok none =>
        if (ctx.function? token).isSome then registered ctx dim token
        else match ctx.symbol? token with
          | some s => .ok (.const s.exact)
          | none => .error (.parse (.unknownToken token))

/-- The constructor of an operation. -/
def Op.apply : Op → Expr → Expr → Expr
  | .add => Expr.add
  | .sub => Expr.sub
  | .mul => Expr.mul
  | .div => Expr.div
  | .pow => Expr.power

/-- The tree of a text without blanks, over the first `dim` axes. -/
def parse (ctx : Context) (dim : Nat) (text : List Char) : Outcome Expr :=
  if ctx.hasName text then atom ctx dim text
  else match _h : split text with
    | .error cause => .error (.parse cause)
    | .ok (.atom token) => atom ctx dim token
    | .ok (.negate a) => do
      let f ← parse ctx dim a
      return f.neg
    | .ok (.binary op l r) => do
      let f ← parse ctx dim l
      let g ← parse ctx dim r
      return op.apply f g
    | .ok (.call name a) =>
      if name = [] then parse ctx dim a
      else match Kind.ofLetters? name with
        | none => registered ctx dim name
        | some kind =>
          match parse ctx dim a with
          | .ok f => .ok (.special kind f)
          | .error fault =>
            if fault.isParse ∧ (ctx.function? name).isSome then registered ctx dim name
            else .error fault
termination_by text.length
decreasing_by
  all_goals have short := shorter_of_split _h
  all_goals simp only [Split.Shorter] at short
  all_goals omega

/-- The splits met in reading a text without blanks, the latest first, after those that were
`seen` before, and what keeps the text from being read. -/
def splitsAfter (ctx : Context) (dim : Nat) (seen : List Split) (text : List Char) :
    List Split × Option Fault :=
  if ctx.hasName text then (seen, faultOf? (atom ctx dim text))
  else match _h : split text with
    | .error cause => (seen, some (.parse cause))
    | .ok (.atom token) => (.atom token :: seen, faultOf? (atom ctx dim token))
    | .ok (.negate a) => splitsAfter ctx dim (.negate a :: seen) a
    | .ok (.binary op l r) =>
      match splitsAfter ctx dim (.binary op l r :: seen) l with
      | (met, none) => splitsAfter ctx dim met r
      | (met, some fault) => (met, some fault)
    | .ok (.call name a) =>
      if name = [] then splitsAfter ctx dim (.call name a :: seen) a
      else match Kind.ofLetters? name with
        | none => (.call name a :: seen, faultOf? (registered ctx dim name))
        | some _ =>
          match splitsAfter ctx dim (.call name a :: seen) a with
          | (met, none) => (met, none)
          | (met, some fault) =>
            if fault.isParse ∧ (ctx.function? name).isSome then
              (met, faultOf? (registered ctx dim name))
            else (met, some fault)
termination_by text.length
decreasing_by
  all_goals have short := shorter_of_split _h
  all_goals simp only [Split.Shorter] at short
  all_goals omega

/-- How a text without blanks is taken apart, in the order of reading. -/
def splits (ctx : Context) (dim : Nat) (text : List Char) : List Split :=
  (splitsAfter ctx dim [] text).1.reverse

/-- The text without its blanks. -/
def withoutBlanks (text : List Char) : List Char := text.filter fun c => !Unicode.isBlank c

/-- The tree of a text, over the first `dim` axes. -/
def build (ctx : Context) (dim : Int) (text : List Char) : Outcome Expr :=
  if Context.isArity dim then parse ctx dim.toNat (withoutBlanks text)
  else .error (.badCount (Fault.integerText dim))

/-- How a text is taken apart, over the first `dim` axes. -/
def trace (ctx : Context) (dim : Int) (text : List Char) : List Split :=
  if Context.isArity dim then splits ctx dim.toNat (withoutBlanks text) else []

end Fluxion
