import Fluxion.Calculator.Value
import Fluxion.Text.Order

/-!
# Values as text

A value has two texts: `toText` for a reader, and `shown` as faults and containers name it. The
text for a reader of a tree is the printed tree, which an unfinished tree does not have. A value
with an integer of too many digits has neither.
-/

namespace Fluxion.Calculator
set_option autoImplicit false

/-- The name of an operation in the shown form of a tree. -/
def opShown : Op → List Char
  | .add => "<Op.ADD: '+'>".toList
  | .sub => "<Op.SUB: '-'>".toList
  | .mul => "<Op.MUL: '*'>".toList
  | .div => "<Op.DIV: '/'>".toList
  | .pow => "<Op.POW: '^'>".toList

/-- A tree as faults name it, node by node. -/
def treeShown : Expr → Outcome (List Char)
  | .var i => do return "Var(axis=".toList ++ (← (Number.int i).shown) ++ [')']
  | .e => .ok "Euler()".toList
  | .pi => .ok "Pi()".toList
  | .const q => do return "Const(value=".toList ++ (← (Number.fraction q).shown) ++ [')']
  | .binary op l r => do
    let lhs ← treeShown l
    let rhs ← treeShown r
    return "Binary(op=".toList ++ opShown op ++ ", lhs=".toList ++ lhs ++ ", rhs=".toList ++ rhs ++
      [')']
  | .comp l r => do
    let lhs ← treeShown l
    let rhs ← treeShown r
    return "Binary(op=<Op.COMP: '('>, lhs=".toList ++ lhs ++ ", rhs=".toList ++ rhs ++ [')']
  | .special k a => do
    return "Special(kind=<Kind.".toList ++ k.letters.map Char.toUpper ++ ": '".toList ++
      k.letters ++ "'>, argument=".toList ++ (← treeShown a) ++ [')']

/-- A scalar field as faults name it. -/
def fieldShown (f : ScalarField) : Outcome (List Char) := do
  let name := if f.dim = 0 then "Tagged".toList else 'F' :: Decimal.digits f.dim ++ ['D']
  return name ++ "(function=".toList ++ (← treeShown f.tree) ++ [')']

/-- Texts with a comma and a blank between them. -/
def listed (texts : List (List Char)) : List Char := List.intercalate [',', ' '] texts

/-- A truth value as text. -/
def truthText (b : Bool) : List Char := if b then "True".toList else "False".toList

/-- Texts as a tuple: a comma follows a single one. -/
def tupled : List (List Char) → List Char
  | [t] => '(' :: t ++ [',', ')']
  | texts => '(' :: listed texts ++ [')']

namespace Registry

/-- The number of variables of a function, as it was given. -/
def arityOf (r : Registry) (name : List Char) (entry : Entry) : Number ⊕ Bool :=
  (find? name r.arities).getD (.inl (.int entry.arity))

/-- What a context names, as faults name it. -/
def shown (r : Registry) : Outcome (List Char) := do
  let functions ← r.context.functions.mapM fun (name, entry) => do
    let tree ← treeShown entry.tree
    let arity ← match r.arityOf name entry with
      | .inl n => n.shown
      | .inr b => .ok (truthText b)
    return Text.quoted name ++ [':', ' '] ++ tupled [tree, arity]
  let symbols := r.context.symbols.map fun (name, s) =>
    Text.quoted name ++ [':', ' '] ++ (Decimal.exactText s.shown).toList
  return "Context(functions=\x7b".toList ++ listed functions ++ "\x7d, symbols=\x7b".toList ++
    listed symbols ++ "\x7d)".toList

end Registry

namespace Value

mutual

/-- A value as faults name it. -/
def shown : Value → Outcome (List Char)
  | null => .ok "None".toList
  | bool b => .ok (truthText b)
  | number n => n.shown
  | undefined _ => .ok "nan".toList
  | text t => .ok (Text.quoted t)
  | tree f => treeShown f
  | polynomial coeffs => do
    return "Polynomial([".toList ++ listed (← allShown coeffs) ++ "])".toList
  | field f => fieldShown f
  | vector items => do
    let names := if items.length = 2 then ["x", "y"] else ["x", "y", "z"]
    let fields := List.zipWith (fun name t => name.toList ++ '=' :: t) names (← allShown items)
    return "Vec".toList ++ Decimal.digits items.length ++ '(' :: listed fields ++ [')']
  | matrix values rows cols => do
    let entries ← allShown values
    let height ← shown rows
    let width ← shown cols
    return "Matrix(values=[".toList ++ listed entries ++ "], n_row=".toList ++ height ++
      ", n_col=".toList ++ width ++ [')']
  | context _ names => names.shown
  | list items => do return '[' :: listed (← allShown items) ++ [']']
  | tuple items => do return tupled (← allShown items)

/-- Values as faults name them. -/
def allShown : List Value → Outcome (List (List Char))
  | [] => .ok []
  | v :: rest => do
    let t ← shown v
    let ts ← allShown rest
    return t :: ts

end

mutual

/-- A value for a reader. -/
def toText : Value → Outcome (List Char)
  | number n => n.text
  | text t => .ok t
  | tree f => ofTree f.print
  | field f => ofTree f.tree.print
  | vector items => do return '(' :: listed (← (allTexts items).mapM id) ++ [')']
  | matrix values rows cols =>
    match rows.int?, cols.int? with
    | some r, some c => Matrix.text ⟨allTexts values, r, c⟩
    | some r, none => if r < 1 then .ok [] else .error .typeMismatch
    | none, _ => .error .typeMismatch
  | v => v.shown

/-- Values for a reader. -/
def allTexts : List Value → List (Outcome (List Char))
  | [] => []
  | v :: rest => toText v :: allTexts rest

end

/-- The text of a value as a string. -/
def shownText (v : Value) : Outcome String := do return String.ofList (← v.shown)

/-- The text of a value for a reader as a string. -/
def readerText (v : Value) : Outcome String := do return String.ofList (← v.toText)

/-- What keeps a tree from being an answer. The mark of an open call does not. -/
def treeFault? (f : Expr) : Option Fault :=
  match faultOf? (ofTree f.print) with
  | some (.tree .openCall) => none
  | fault => fault

/-- What keeps the functions of a context, in the order of their names, from being written. -/
def namesFault? (names : Registry) : Option Fault :=
  (Text.sortedByName names.context.functions).findSome? fun (_, entry) =>
    faultOf? (ofTree entry.tree.print)

mutual

/-- What keeps a value from being an answer: a tree with a variable of no axis, a number of too many
digits, or a context with a function that cannot be written. -/
def fault? : Value → Option Fault
  | number n => faultOf? n.text
  | tree f => treeFault? f
  | field f => treeFault? f.tree
  | polynomial items | vector items | matrix items _ _ | list items | tuple items =>
    anyFault? items
  | context _ names => namesFault? names
  | _ => none

/-- What keeps some values from being an answer. -/
def anyFault? : List Value → Option Fault
  | [] => none
  | v :: rest => v.fault?.or (anyFault? rest)

end

end Value

end Fluxion.Calculator
