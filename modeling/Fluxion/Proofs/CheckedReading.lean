import Fluxion.Proofs.CheckedArithmetic
import Fluxion.Proofs.Failure
import Fluxion.Proofs.RoundTrip

/-!
# Reading meets no fault of arithmetic

Besides the numbers of a tree, two more come up in reading: the fraction of a literal, whose
denominator is a power of ten (`value_eq`), and that of a symbol. A symbol was made a fraction when
it was registered, and is made the same one when it is read (`Context.Exact`). So reading with every
number checked is reading (`parse_eq`), and the only errors are those of texts that are no
expressions and of literals with too many digits, each with a piece of the text to blame
(`build_outcome`).
-/

namespace Fluxion
set_option autoImplicit false
open Fluxion.Text

section Symbols

/-- Every symbol stands for the fraction that was kept for it. -/
def Context.Exact (ctx : Context) : Prop :=
  ∀ name s, ctx.symbol? name = some s → fractionOf s.shown = .ok s.exact

variable {ctx ctx' : Context} {name : List Char}

theorem exact_withSymbol {x : Float} (h : ctx.Exact) (made : ctx.withSymbol name x = .ok ctx') :
    ctx'.Exact := by
  obtain ⟨q, value, lookup⟩ := Context.symbol?_withSymbol made
  intro other s found
  rw [lookup] at found
  split at found
  · cases found
    exact value
  · exact h other s found

theorem exact_withFunction {f : Expr} {arity : Int} (h : ctx.Exact)
    (made : ctx.withFunction name f arity = .ok ctx') : ctx'.Exact := by
  intro other s found
  rw [Context.symbol?_withFunction made] at found
  exact h other s found

/-- The values of a context that was registered step by step are the fractions of its doubles. -/
theorem Context.Reachable.exact (h : ctx.Reachable) : ctx.Exact := by
  induction h with
  | empty =>
    intro name s found
    contradiction
  | symbol _ made ih => exact exact_withSymbol ih made
  | function _ _ _ made ih _ => exact exact_withFunction ih made

end Symbols

namespace Checked

variable {ctx : Context} {dim : Nat} {text token : List Char}

section Tokens

/-- A fraction by its two numbers. -/
def ratio (num den : Nat) : Outcome Rat :=
  if den = 0 then .error (.zeroDenominator (Fault.integerText num)) else .ok (mkRat num den)

/-- The fraction that a literal writes, if the text is one. -/
def value (text : List Char) : Outcome (Option Rat) :=
  match Literal.cutAtPoint text with
  | (whole, none) =>
    match Literal.run? whole with
    | some w => do return some (← ratio (Decimal.ofValues w) 1)
    | none => .ok none
  | (whole, some fraction) =>
    match Literal.run? whole, Literal.run? fraction with
    | some w, some f => do return some (← ratio (Decimal.ofValues (w ++ f)) (Decimal.tens f.length))
    | _, _ => .ok none

/-- The fraction that a literal writes on a line of its own: one line end may follow. -/
def line (text : List Char) : Outcome (Option Rat) :=
  match text.getLast? with
  | some '\n' => value text.dropLast
  | _ => value text

/-- The fraction that a line is read as, unless it has too many digits. -/
def read (text : List Char) : Outcome (Option Rat) := do
  match ← line text with
  | none => return none
  | some q => if Literal.isReadable text then return some q else .error .tooManyDigits

/-- The denominator of a literal is a power of ten. -/
theorem ratio_eq {num den : Nat} (h : den ≠ 0) : ratio num den = .ok (mkRat num den) := if_neg h

theorem value_eq (text : List Char) : value text = .ok (Literal.value? text) := by
  unfold value Literal.value?
  split
  · split <;> simp_all [ratio_eq]
  · split
    · rw [ratio_eq (Decimal.tens_pos _).ne']
      simp_all
    · simp_all

theorem line_eq (text : List Char) : line text = .ok (Literal.line? text) := by
  unfold line Literal.line?
  split <;> simp_all [value_eq]

/-- Reading a literal divides by no zero, and has the limit on digits either way. -/
theorem read_eq (text : List Char) : read text = Literal.read text := by
  rw [read, line_eq]
  rfl

end Tokens

section Reading

/-- The tree of a token. A symbol is made a fraction when it is met. -/
def atom (ctx : Context) (dim : Nat) (token : List Char) : Outcome Expr :=
  match axisVariable? dim token with
  | some f => .ok f
  | none =>
    if token = ['e'] then .ok .e
    else if token = ['p', 'i'] then .ok .pi
    else do
      match ← read token with
      | some q => return .const q
      | none =>
        if (ctx.function? token).isSome then registered ctx dim token
        else match ctx.symbol? token with
          | some s => return .const (← fractionOf s.shown)
          | none => .error (.parse (.unknownToken token))

/-- The tree of a text without blanks. Only a text that is no expression makes a call stand for a
registered function; any other fault ends the reading. -/
def parse (ctx : Context) (dim : Nat) (text : List Char) : Outcome Expr :=
  if ctx.hasName text then atom ctx dim text
  else match _h : split text with
    | .error cause => .error (.parse cause)
    | .ok (.atom token) => atom ctx dim token
    | .ok (.negate a) => do
      let f ← parse ctx dim a
      neg f
    | .ok (.binary op l r) => do
      let f ← parse ctx dim l
      let g ← parse ctx dim r
      apply op f g
    | .ok (.call name a) =>
      if name = [] then parse ctx dim a
      else match Kind.ofLetters? name with
        | none => registered ctx dim name
        | some kind =>
          match parse ctx dim a with
          | .ok f => .ok (.special kind f)
          | .error fault =>
            if fault.isParse ∧ (ctx.function? name).isSome then registered ctx dim name
            else .error fault
termination_by text.length
decreasing_by
  all_goals have short := shorter_of_split _h
  all_goals simp only [Split.Shorter] at short
  all_goals omega

/-- The tree of a text, over the first `dim` axes. -/
def build (ctx : Context) (dim : Int) (text : List Char) : Outcome Expr :=
  if Context.isArity dim then parse ctx dim.toNat (withoutBlanks text)
  else .error (.badCount (Fault.integerText dim))

variable (symbols : ctx.Exact)

include symbols

theorem atom_eq : atom ctx dim token = Fluxion.atom ctx dim token := by
  fun_cases Fluxion.atom ctx dim token with
  | case4 _ _ _ fault unread =>
    simp_all [atom, read_eq]
    rfl
  | case7 _ _ _ _ _ s found =>
    have value := symbols token s found
    simp_all [atom, read_eq]
  | _ => simp_all [atom, read_eq]

/-- By recursion on the text: the readings take the same steps. -/
theorem parse_eq : parse ctx dim text = Fluxion.parse ctx dim text := by
  fun_induction Fluxion.parse ctx dim text with
  | case1 text named => rw [parse, if_pos named, atom_eq symbols]
  | case2 text unnamed cause cut =>
    rw [parse, if_neg unnamed]
    split <;> simp_all
  | case3 text unnamed token cut =>
    rw [parse, if_neg unnamed]
    split <;> simp_all [atom_eq]
  | case4 text unnamed a cut ih =>
    rw [← ih, parse, if_neg unnamed]
    split <;> simp_all [neg_eq]
  | case5 text unnamed op l r cut ihr ihl =>
    simp only [← ihl, ← ihr]
    rw [parse, if_neg unnamed]
    split <;> simp_all [apply_eq]
  | case6 text unnamed a cut ih =>
    rw [← ih, parse, if_neg unnamed]
    split <;> simp_all
  | case7 text unnamed name a cut nonempty noKind =>
    rw [parse, if_neg unnamed]
    split <;> simp_all
  | case8 text unnamed name a cut nonempty kind found f read ih =>
    rw [read] at ih
    rw [parse, if_neg unnamed]
    split <;> simp_all
  | case9 text unnamed name a cut nonempty kind found fault read shadowed ih =>
    rw [read] at ih
    rw [parse, if_neg unnamed]
    split <;> simp_all
  | case10 text unnamed name a cut nonempty kind found fault read plain ih =>
    rw [read] at ih
    rw [parse, if_neg unnamed]
    split <;> simp_all

theorem build_eq (n : Int) (text : List Char) : build ctx n text = Fluxion.build ctx n text := by
  unfold build Fluxion.build
  split
  · exact parse_eq symbols
  · rfl

end Reading

end Checked

/-- Reading meets no fault of arithmetic. It makes a tree, or it reports one of five errors at a
piece of the text without blanks: the four of texts that are no expressions, or, if the text has
more digits than an integer is read from, that a literal has too many. -/
theorem build_outcome {ctx : Context} (reachable : ctx.Reachable) {dim : Int}
    (arity : Context.isArity dim = true) (text : List Char) :
    Checked.build ctx dim text = build ctx dim text ∧
      ((∃ f, build ctx dim text = .ok f) ∨
        ∃ fault s, build ctx dim text = .error fault ∧ s <:+: withoutBlanks text ∧
          FailsAt ctx dim.toNat s fault ∧
          (text.countP Unicode.isDecimalDigit ≤ Decimal.maxDigits → fault.isParse = true)) := by
  refine ⟨Checked.build_eq reachable.exact dim text, ?_⟩
  rw [build_eq_parse arity]
  cases outcome : parse ctx dim.toNat (withoutBlanks text) with
  | ok f => exact .inl ⟨f, rfl⟩
  | error fault =>
    obtain ⟨s, piece, fails⟩ := exists_piece_of_parse_error outcome
    have inside := piece.infix_whole
    exact .inr ⟨fault, s, rfl, inside, fails, fails.isParse inside⟩

/-- A name of too many variables. -/
theorem build_outcome_longer :
    let sum : Expr := .binary .add (.var 0) (.var 1)
    let ctx : Context := { functions := [(['s'], ⟨sum, 2⟩)] }
    ctx.Reachable ∧ Context.isArity 1 = true ∧
      Checked.build ctx 1 ['s'] = .error (.parse (.dimensionMismatch ['s'])) ∧
      ∃ fault s, build ctx 1 ['s'] = .error fault ∧ s <:+: ['s'] ∧ FailsAt ctx 1 s fault ∧
        fault.isParse = true := by
  intro sum ctx
  have canonical : sum.Canonical :=
    ⟨trivial, trivial, by simp [Op.apply, Expr.add, Expr.collect, Expr.coefficient]⟩
  have within : sum.Within 3 := ⟨⟨by decide, by decide⟩, ⟨by decide, by decide⟩⟩
  have made : Context.withFunction {} ['s'] sum 2 = .ok ctx := rfl
  have reachable : ctx.Reachable :=
    .function .empty .empty (build_render canonical within ⟨trivial, trivial⟩) made
  have arity : Context.isArity 1 = true := rfl
  have failed : build ctx 1 ['s'] = .error (.parse (.dimensionMismatch ['s'])) := by
    rw [build_named rfl rfl (by decide)]
    rfl
  obtain ⟨same, built | ⟨fault, s, failed', inside, fails, parsed⟩⟩ :=
    build_outcome reachable arity ['s']
  · obtain ⟨f, built⟩ := built
    rw [failed] at built
    contradiction
  · exact ⟨reachable, arity, same.trans failed, fault, s, failed', inside, fails,
      parsed (by decide)⟩

/-- A literal alone is no tree and has none of the four errors if it has too many digits. -/
theorem build_outcome_unreadable :
    let text := List.replicate 4301 '1'
    Context.Reachable {} ∧ Context.isArity 1 = true ∧
      build {} 1 text = .error .tooManyDigits ∧ Fault.tooManyDigits.isParse = false :=
  ⟨.empty, rfl, build_ones wellNamed_empty rfl (by decide), rfl⟩

end Fluxion
