import Fluxion.Expr.Eval
import Fluxion.Proofs.RoundTrip

/-!
# Trees over the first variables

A function is registered with as many variables as it was built with, and only functions of no more
variables than the text may have are read. So whatever is built over the first `d` axes in a context
that was filled like this, and whatever the constructors and differentiation make of it, is over
these axes (`Assembled.within`), and its value at a point depends on nothing but the first `d`
coordinates (`evalIn_congr`).

The invariant is `Context.Fitted`: every registered tree is over as many axes as it is registered
with. One registration keeps it (`fitted_run`), and so does a whole session (`fitted_session`).
-/

namespace Fluxion
set_option autoImplicit false

/-- A symbol, or a function by its text, which is built over as many axes as it is registered
with. -/
inductive Registration where
  | symbol (name : List Char) (value : Float)
  | function (name text : List Char) (arity : Int)

/-- The context after a registration. -/
def Registration.run (ctx : Context) : Registration → Outcome Context
  | symbol name value => ctx.withSymbol name value
  | function name text arity => do
    let tree ← build ctx arity text
    ctx.withFunction name tree arity

/-- The context after a session of registrations. -/
def Context.session (steps : List Registration) : Outcome Context :=
  steps.foldlM Registration.run {}

/-- A tree made by the constructors and by differentiation from trees built over the first `dim`
axes. -/
inductive Assembled (ctx : Context) (dim : Int) : Expr → Prop where
  | built {text f} : build ctx dim text = .ok f → Assembled ctx dim f
  | join (op : Op) {f g} : Assembled ctx dim f → Assembled ctx dim g →
      Assembled ctx dim (op.apply f g)
  | power (r : Rat) {f} : Assembled ctx dim f → Assembled ctx dim (f.powr r)
  | slope (along : Axis) {f d} : Assembled ctx dim f → f.derivative along = .ok d →
      Assembled ctx dim d

/-- Every registered function is over as many axes as it is registered with. -/
def Context.Fitted (ctx : Context) : Prop :=
  ∀ name entry, ctx.function? name = some entry → entry.tree.Within entry.arity

section Session

variable {ctx ctx' : Context} {dim : Int} {f : Expr}

/-- A tree within some variables is within more. -/
theorem Expr.Within.mono {d n : Nat} {f : Expr} (h : f.Within d) (le : d ≤ n) : f.Within n := by
  refine Over.mono h ?_
  rintro i ⟨lower, upper⟩
  exact ⟨lower, by omega⟩

/-- What is built where the registered functions fit is over the axes it was built over: longer
functions are refused. -/
theorem within_of_build (fitted : ctx.Fitted) {text : List Char}
    (built : build ctx dim text = .ok f) : f.Within dim.toNat := by
  obtain ⟨-, read⟩ := build_eq_ok built
  refine parse_keeps (Expr.stable_over _) trivial ?_ ?_ read
  · intro i small
    exact ⟨by omega, by omega⟩
  · intro name entry found small
    exact (fitted name entry found).mono small

theorem fitted_empty : Context.Fitted {} := by
  intro name entry found
  contradiction

theorem fitted_withSymbol {name : List Char} {value : Float} (h : ctx.Fitted)
    (made : ctx.withSymbol name value = .ok ctx') : ctx'.Fitted := by
  intro other entry found
  rw [Context.function?_withSymbol made] at found
  exact h other entry found

theorem fitted_withFunction {name : List Char} (h : ctx.Fitted) (hf : f.Within dim.toNat)
    (made : ctx.withFunction name f dim = .ok ctx') : ctx'.Fitted := by
  intro other entry found
  rw [Context.function?_withFunction made] at found
  split at found
  · cases found
    exact hf
  · exact h other entry found

/-- A registration keeps the fit. -/
theorem fitted_run {step : Registration} (h : ctx.Fitted) (made : step.run ctx = .ok ctx') :
    ctx'.Fitted := by
  cases step with
  | symbol => exact fitted_withSymbol h made
  | function name text arity =>
    obtain ⟨tree, built, made⟩ := bind_eq_ok.1 made
    exact fitted_withFunction h (within_of_build h built) made

/-- What each registration of a session keeps, the session keeps. -/
theorem session_keeps {P : Context → Prop} {steps : List Registration}
    (keeps : ∀ step ∈ steps, ∀ {ctx ctx' : Context}, P ctx → step.run ctx = .ok ctx' → P ctx')
    (h : P ctx) (filled : steps.foldlM Registration.run ctx = .ok ctx') : P ctx' := by
  induction steps generalizing ctx with
  | nil =>
    cases filled
    exact h
  | cons step steps ih =>
    rw [List.foldlM_cons, bind_eq_ok] at filled
    obtain ⟨next, made, filled⟩ := filled
    have later := fun s hs => @keeps s (List.mem_cons_of_mem _ hs)
    exact ih later (keeps step (List.mem_cons_self ..) h made) filled

/-- A session keeps the fit. -/
theorem fitted_session {steps : List Registration} (h : ctx.Fitted)
    (filled : steps.foldlM Registration.run ctx = .ok ctx') : ctx'.Fitted :=
  session_keeps (fun _ _ _ _ => fitted_run) h filled

/-- The constructors and differentiation bring in no other axes. -/
theorem Assembled.within (fitted : ctx.Fitted) (made : Assembled ctx dim f) :
    f.Within dim.toNat := by
  have S := Expr.stable_over fun i => 0 ≤ i ∧ i < (dim.toNat : Int)
  induction made with
  | built h => exact within_of_build fitted h
  | join op _ _ ihf ihg => exact S.apply op ihf ihg
  | power r _ ih => exact S.powr r ih
  | slope along _ hd ih => exact S.derivative ih hd

theorem Assembled.isArity (made : Assembled ctx dim f) : Context.isArity dim = true := by
  induction made with
  | built h => exact (build_eq_ok h).1
  | join _ _ _ ih => exact ih
  | power _ _ ih | slope _ _ _ ih => exact ih

end Session

section Evaluation

variable {α : Type} {p q : List α} {d : Nat}

/-- A position that is not negative counts from the front. -/
theorem itemAt?_of_nonneg {i : Int} (lower : 0 ≤ i) : itemAt? p i = p[i.toNat]? := by
  rw [itemAt?, position?, if_pos lower]
  split
  · rfl
  · rename_i beyond
    rw [List.getElem?_eq_none (Nat.not_lt.1 beyond)]
    rfl

/-- A position below the dimension is found in the coordinates that agree. -/
theorem itemAt?_eq_of_take_eq (agree : p.take d = q.take d) {i : Int} (lower : 0 ≤ i)
    (upper : i < d) : itemAt? p i = itemAt? q i := by
  have inside : i.toNat < d := by omega
  rw [itemAt?_of_nonneg lower, itemAt?_of_nonneg lower, ← List.getElem?_take_of_lt inside, agree,
    List.getElem?_take_of_lt inside]

/-- A tree over the first axes has the same value, or the same fault, at points that agree on
them, in any arithmetic. -/
theorem evalIn_congr {f : Expr} (within : f.Within d) (A : Arithmetic α)
    (agree : p.take d = q.take d) : f.evalIn A p = f.evalIn A q := by
  induction f with
  | var i => rw [Expr.evalIn, Expr.evalIn, itemAt?_eq_of_take_eq agree within.1 within.2]
  | e | pi | const => rfl
  | binary op l r ihl ihr =>
    rw [Expr.evalIn, Expr.evalIn, ihl within.1, ihr within.2]
  | comp => exact within.elim
  | special k a ih => rw [Expr.evalIn, Expr.evalIn, ih within]

end Evaluation

/-- What is assembled over the first `dim` axes, after any session, has no unresolved call and no
other variable; it can be differentiated along every axis, and its value depends on the first `dim`
coordinates alone. -/
theorem assembled_within {steps : List Registration} {ctx : Context}
    (filled : Context.session steps = .ok ctx) {dim : Int} {f : Expr}
    (made : Assembled ctx dim f) :
    f.Within dim.toNat ∧ (∀ along, ∃ d, f.derivative along = .ok d) ∧
      ∀ {α : Type} (A : Arithmetic α) (p q : List α), p.take dim.toNat = q.take dim.toNat →
        f.evalIn A p = f.evalIn A q := by
  have within := made.within (fitted_session fitted_empty filled)
  have small := toNat_le_of_isArity made.isArity
  refine ⟨within, fun along => Expr.exists_derivative along ?_, fun A p q => evalIn_congr within A⟩
  exact Expr.Within.finished (within.mono small)

/-- The cube of a sum that was registered as a function of two variables. -/
theorem assembled_within_cube :
    let sum := (Expr.var 0).add (.var 1)
    let ctx : Context := { functions := [(['s'], ⟨sum, 2⟩)] }
    Context.session [.function ['s'] ['x', '+', 'y'] 2] = .ok ctx ∧
      Assembled ctx 2 (sum.powr 3) ∧ (sum.powr 3).Within 2 ∧
      ∀ {α : Type} (A : Arithmetic α) (a b c d : α),
        (sum.powr 3).evalIn A [a, b, c] = (sum.powr 3).evalIn A [a, b, d] := by
  intro sum ctx
  have phrase : Reads {} (2 : Int).toNat .sum ['x', '+', 'y'] sum :=
    .join .add (.single .add (.single .mul (.single .pow (.axis .x (by decide)))))
      (.single .mul (.single .pow (.axis .y (by decide))))
  have arity : Context.isArity 2 = true := rfl
  have registered : build {} 2 ['x', '+', 'y'] = .ok sum := by
    rw [build_eq_parse arity, parse_phrase wellNamed_empty phrase]
  have filled : Context.session [.function ['s'] ['x', '+', 'y'] 2] = .ok ctx := by
    simp only [Context.session, List.foldlM_cons, Registration.run, registered]
    rfl
  have built : build ctx 2 ['s'] = .ok sum := by
    rw [build_named rfl rfl (by decide)]
    rfl
  have made : Assembled ctx 2 (sum.powr 3) := .power 3 (.built built)
  obtain ⟨within, -, congr⟩ := assembled_within filled made
  exact ⟨filled, made, within, fun A a b c d => congr A _ _ rfl⟩

end Fluxion
