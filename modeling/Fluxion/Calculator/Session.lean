import Fluxion.Calculator.Command

/-!
# Sessions

A session is a sequence of steps. Each step runs a command on arguments, which are written
values or the results of earlier steps, and every step has a result: that of a failed step is
`null`, which later steps take like any other value. A step fails, too, when its result cannot be
written.

A tree can be given node by node, without any constructor; then every field must hold what it
should. What is not a number gets its mark when it is given and when it is a result.
-/

namespace Fluxion.Calculator
set_option autoImplicit false

/-- An argument of a step. -/
inductive Argument where
  | null
  | bool (b : Bool)
  | int (n : Int)
  | double (x : Float)
  /-- A double as it is written. -/
  | written (t : List Char)
  | fraction (num den : Argument)
  | text (t : List Char)
  | polynomial (coeffs : List Argument)
  /-- The tree that a text writes, over all three axes. -/
  | tree (t : List Char)
  /-- The scalar field that a text writes. -/
  | field (dim : Argument) (t : List Char)
  /-- The result of an earlier step. -/
  | result (step : Nat)
  | list (items : List Argument)
  | var (axis : Argument)
  | e
  | pi
  | const (value : Argument)
  | binary (op : Op) (lhs rhs : Argument)
  | comp (lhs rhs : Argument)
  | special (kind : Kind) (arg : Argument)
  deriving Inhabited

/-- The result of a step, and whether it is rounded. -/
structure Answer where
  value : Value
  rounded : Bool
  deriving Inhabited

/-- The state of a session: the contexts by handle, the results so far, by step, and the first mark
that is left for what is not a number. -/
structure Session where
  registries : List Registry := []
  answers : List Answer := []
  mark : Nat := 0

/-- The variable of an axis that is given as a value. -/
def variableAt (axis : Value) : Outcome Value :=
  match axis.int? with
  | some i => .ok (.tree (.var i))
  | none => .error (axis.illTyped "axis" "int")

namespace Session

mutual

/-- The value of an argument. The parts of a node come before the node. -/
def value (s : Session) : Argument → Outcome Value
  | .null => .ok .null
  | .bool b => .ok (.bool b)
  | .int n => .ok (intValue n)
  | .double x => .ok (doubleValue x)
  | .written t => do return doubleValue (← (Value.text t).toDouble)
  | .fraction num den => do fractionOfInts (← value s num) (← value s den)
  | .text t => .ok (.text t)
  | .polynomial coeffs => do
    return .polynomial (Polynomial.ofList Value.coefficients (← values s coeffs)).coeffs
  | .tree t => do return .tree (← build {} 3 t)
  | .field dim t => do return .field (← ScalarField.read {} (← dimOf (← value s dim)) t)
  | .result step =>
    match s.answers[step]? with
    | some answer => .ok (answer.value.refreshed s.registries)
    | none => .error .noPosition
  | .list items => do return .list (← values s items)
  | .var axis => do variableAt (← value s axis)
  | .e => .ok (.tree .e)
  | .pi => .ok (.tree .pi)
  | .const v => do return .tree (.const (← (← value s v).asConstant))
  | .binary op l r => do
    let v ← value s l
    let w ← value s r
    return .tree (.binary op (← v.asOperand "lhs") (← w.asOperand "rhs"))
  | .comp l r => do
    let v ← value s l
    let w ← value s r
    return .tree (.comp (← v.asOperand "lhs") (← w.asOperand "rhs"))
  | .special k a => do
    let v ← value s a
    return .tree (.special k (← v.asOperand "argument"))

/-- The values of arguments, in order. -/
def values (s : Session) : List Argument → Outcome (List Value)
  | [] => .ok []
  | a :: rest => do
    let v ← value s a
    let vs ← values s rest
    return v :: vs

end

/-- Whether an argument is the rounded result of an earlier step. -/
def isRounded (s : Session) : Argument → Bool
  | .result step =>
    match s.answers[step]? with
    | some answer => answer.rounded
    | none => false
  | _ => false

/-- The session with the result of one more step. -/
def record (s : Session) (value : Value) (rounded : Bool) : Session :=
  { s with answers := s.answers ++ [⟨value, rounded⟩] }

/-- The session with a context as a value shows it, which may be a new one. -/
def keep (s : Session) : Value → Session
  | .context handle names =>
    if handle < s.registries.length then { s with registries := s.registries.set handle names }
    else { s with registries := s.registries ++ [names] }
  | _ => s

/-- A step of the session, and its outcome. What a step does to a context lasts, even if the
context cannot be written. -/
def step (s : Session) (command : Command) (args : List Argument) : Session × Outcome Answer :=
  match s.values args with
  | .error fault => (s.record .null false, .error fault)
  | .ok vs =>
    let (vs, mark) := Value.allMarked s.mark vs
    match command.run s.registries.length vs with
    | .error fault => (s.record .null false, .error fault)
    | .ok v =>
      let (v, mark) := v.marked mark
      let s := { s with mark }.keep v
      match v.fault? with
      | some fault => (s.record .null false, .error fault)
      | none =>
        let rounded := command.isRounded vs || args.any s.isRounded
        (s.record v rounded, .ok ⟨v, rounded⟩)

end Session

end Fluxion.Calculator
