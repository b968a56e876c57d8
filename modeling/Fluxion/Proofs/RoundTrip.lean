import Fluxion.Proofs.Printing
import Fluxion.Proofs.Soundness

/-!
# Reading back what was printed

A context is reachable when it was filled by registering finite symbols and functions that were
built in reachable contexts. What is built in such a context is canonical and finished, and so are
its derivatives of every order. The text of any tree is built as what the constructors make of the
tree from its leaves upward (`build_render_rebuild`). For a canonical tree that is the tree itself,
so its text is built as the same tree again, without any context (`build_print`).
-/

namespace Fluxion
set_option autoImplicit false

namespace Context

/-- The contexts that registering can make. -/
inductive Reachable : Context → Prop where
  | empty : Reachable {}
  | symbol {ctx ctx' : Context} {name : List Char} {value : Float} : Reachable ctx →
      ctx.withSymbol name value = .ok ctx' → Reachable ctx'
  /-- The function may have been built in another context. -/
  | function {ctx ctx' source : Context} {name text : List Char} {dim arity : Int} {f : Expr} :
      Reachable ctx → Reachable source → build source dim text = .ok f →
      ctx.withFunction name f arity = .ok ctx' → Reachable ctx'

/-- Every registered function has the property. -/
def Bodies (P : Expr → Prop) (ctx : Context) : Prop :=
  ∀ name entry, ctx.function? name = some entry → P entry.tree

/-- Every registered function of at most `dim` variables has the property. -/
def Usable (P : Expr → Prop) (dim : Nat) (ctx : Context) : Prop :=
  ∀ name entry, ctx.function? name = some entry → entry.arity ≤ dim → P entry.tree

/-- Bodies with a property are usable in every dimension. -/
theorem Bodies.usable {P : Expr → Prop} {ctx : Context} (h : ctx.Bodies P) (dim : Nat) :
    ctx.Usable P dim :=
  fun name entry found _ => h name entry found

theorem bodies_empty (P : Expr → Prop) : Bodies P {} := by
  intro name entry h
  contradiction

/-- Registering a symbol adds no body. -/
theorem bodies_withSymbol {P : Expr → Prop} {ctx ctx' : Context} {name : List Char}
    {value : Float} (h : ctx.Bodies P) (made : ctx.withSymbol name value = .ok ctx') :
    ctx'.Bodies P := by
  intro other entry found
  rw [function?_withSymbol made] at found
  exact h other entry found

theorem bodies_withFunction {P : Expr → Prop} {ctx ctx' : Context} {name : List Char}
    {arity : Int} {f : Expr} (h : ctx.Bodies P) (hf : P f)
    (made : ctx.withFunction name f arity = .ok ctx') : ctx'.Bodies P := by
  intro other entry found
  rw [function?_withFunction made] at found
  split at found
  · cases found
    exact hf
  · exact h other entry found

end Context

section Parse

variable {P : Expr → Prop} {ctx : Context} {dim : Nat} {f : Expr}

theorem registered_keeps (usable : ctx.Usable P dim) {name : List Char}
    (h : registered ctx dim name = .ok f) : P f := by
  unfold registered at h
  split at h
  · contradiction
  · rename_i entry found
    split at h
    · contradiction
    · rename_i small
      cases h
      exact usable name entry found (Nat.not_lt.1 small)

/-- A token is a constant, a variable or a body of the context. -/
theorem atom_keeps (S : Expr.Stable P) (pi : P .pi) (axes : ∀ i : Nat, i < dim → P (.var i))
    (usable : ctx.Usable P dim) {token : List Char} (h : atom ctx dim token = .ok f) : P f := by
  unfold atom at h
  split at h
  · rename_i g found
    cases h
    unfold axisVariable? at found
    split at found
    · split at found
      · split at found
        · cases found
          exact axes _ (by assumption)
        · contradiction
      · contradiction
    · contradiction
  · split at h
    · cases h
      exact S.e
    · split at h
      · cases h
        exact pi
      · split at h
        · contradiction
        · cases h
          exact S.const _
        · split at h
          · exact registered_keeps usable h
          · split at h
            · cases h
              exact S.const _
            · contradiction

/-- What is read has every stable property that the variables and the usable functions have. -/
theorem parse_keeps (S : Expr.Stable P) (pi : P .pi) (axes : ∀ i : Nat, i < dim → P (.var i))
    (usable : ctx.Usable P dim) {text : List Char} (h : parse ctx dim text = .ok f) : P f := by
  induction text using parse.induct ctx dim generalizing f with
  | case1 text named =>
    rw [parse_named named] at h
    exact atom_keeps S pi axes usable h
  | case2 text unnamed cause cut =>
    rw [parse_error (by simpa using unnamed) cut] at h
    contradiction
  | case3 text unnamed token cut =>
    rw [parse_atom (by simpa using unnamed) cut] at h
    exact atom_keeps S pi axes usable h
  | case4 text unnamed a cut ih =>
    rw [parse_negate (by simpa using unnamed) cut, bind_eq_ok] at h
    obtain ⟨g, hg, h⟩ := h
    cases h
    exact S.neg (ih hg)
  | case5 text unnamed op l r cut ihl ihr =>
    rw [parse_binary (by simpa using unnamed) cut, bind_eq_ok] at h
    obtain ⟨g, hg, h⟩ := h
    obtain ⟨k, hk, h⟩ := bind_eq_ok.1 h
    cases h
    exact S.apply op (ihl hg) (ihr hk)
  | case6 text unnamed a cut ih =>
    rw [parse_brackets (by simpa using unnamed) cut] at h
    exact ih h
  | case7 text unnamed name a cut nonempty noKind =>
    rw [parse_applied (by simpa using unnamed) cut nonempty noKind] at h
    exact registered_keeps usable h
  | case8 text unnamed name a cut nonempty kind found g hg ih =>
    rw [parse_call (by simpa using unnamed) cut nonempty found hg] at h
    cases h
    exact S.call kind (ih hg)
  | case9 text unnamed name a cut nonempty kind found fault hg shadowed ih =>
    rw [parse_call_error (by simpa using unnamed) cut nonempty found hg, if_pos shadowed] at h
    exact registered_keeps usable h
  | case10 text unnamed name a cut nonempty kind found fault hg plain ih =>
    rw [parse_call_error (by simpa using unnamed) cut nonempty found hg, if_neg plain] at h
    contradiction

/-- A text that builds is read without its blanks, in a dimension that is allowed. -/
theorem build_eq_ok {n : Int} {text : List Char} (h : build ctx n text = .ok f) :
    Context.isArity n = true ∧ parse ctx n.toNat (withoutBlanks text) = .ok f := by
  unfold build at h
  split at h
  · rename_i arity
    exact ⟨arity, h⟩
  · contradiction

theorem toNat_le_of_isArity {n : Int} (h : Context.isArity n = true) : n.toNat ≤ 3 := by
  simp only [Context.isArity, Bool.or_eq_true, decide_eq_true_eq] at h
  omega

/-- What is built where all registered functions are canonical and finished is so itself. -/
theorem build_keeps (canonical : ctx.Bodies Expr.Canonical) (within : ctx.Bodies (Expr.Within 3))
    {n : Int} {text : List Char} (h : build ctx n text = .ok f) :
    f.Canonical ∧ f.Within 3 := by
  obtain ⟨arity, read⟩ := build_eq_ok h
  have small := toNat_le_of_isArity arity
  constructor
  · exact parse_keeps Expr.stable_canonical trivial (fun _ _ => trivial) (canonical.usable _) read
  · refine parse_keeps (Expr.stable_over _) trivial ?_ (within.usable _) read
    intro i hi
    exact ⟨by omega, by omega⟩

end Parse

/-- Whatever is registered in a reachable context is canonical and finished. -/
theorem Context.Reachable.bodies {ctx : Context} (h : ctx.Reachable) :
    ctx.Bodies Expr.Canonical ∧ ctx.Bodies (Expr.Within 3) := by
  induction h with
  | empty => exact ⟨bodies_empty _, bodies_empty _⟩
  | symbol _ made ih => exact ⟨bodies_withSymbol ih.1 made, bodies_withSymbol ih.2 made⟩
  | function _ _ built made ih ihSource =>
    obtain ⟨canonical, within⟩ := build_keeps ihSource.1 ihSource.2 built
    exact ⟨bodies_withFunction ih.1 canonical made, bodies_withFunction ih.2 within made⟩

/-- The derivative along each of the axes in turn. -/
def Expr.derivatives (f : Expr) (axes : List Axis) : Except TreeFault Expr :=
  axes.foldlM (fun g along => g.derivative along) f

/-- Finished trees have derivatives of every order, which keep what is stable. -/
theorem Expr.exists_derivatives {f : Expr} (axes : List Axis) (canonical : f.Canonical)
    (within : f.Within 3) :
    ∃ g, f.derivatives axes = .ok g ∧ g.Canonical ∧ g.Within 3 := by
  induction axes generalizing f with
  | nil => exact ⟨f, rfl, canonical, within⟩
  | cons along axes ih =>
    obtain ⟨d, hd⟩ := exists_derivative along (Within.finished within)
    obtain ⟨g, hg, canonical, within⟩ :=
      ih (stable_canonical.derivative canonical hd) ((stable_over _).derivative within hd)
    refine ⟨g, ?_, canonical, within⟩
    rw [derivatives, List.foldlM_cons, hd]
    exact hg

/-- The text of a tree is built as the tree that the constructors make again. -/
theorem build_render_rebuild {ctx : Context} (named : ctx.WellNamed) {n : Int}
    (arity : Context.isArity n = true) {g : Expr} (within : g.Within n.toNat)
    (writable : g.Writable) : build ctx n g.render = .ok g.rebuild := by
  have phrase : Reads ctx n.toNat .sum g.render g.rebuild :=
    reads_render (toNat_le_of_isArity arity) within writable
  rw [build_eq_parse arity, parse_phrase named phrase]

/-- The text of a canonical tree is built as the tree. -/
theorem build_render {g : Expr} (canonical : g.Canonical) (within : g.Within 3)
    (writable : g.Writable) : build {} 3 g.render = .ok g := by
  have built : build {} 3 g.render = .ok g.rebuild :=
    build_render_rebuild wellNamed_empty rfl within writable
  rwa [canonical.rebuild_eq] at built

/-- Whatever is built in a reachable context can be differentiated along any axes. It can be printed
then unless one of its constants has too many digits, and what is printed is built as the same tree
again. -/
theorem build_print {ctx : Context} (reachable : ctx.Reachable) {dim : Int} {text : List Char}
    {f : Expr} (built : build ctx dim text = .ok f) (axes : List Axis) :
    ∃ g, f.derivatives axes = .ok g ∧
      (g.Writable → ∃ shown, g.print = .ok shown ∧ build {} 3 shown = .ok g) ∧
      (¬g.Writable → g.print = .error .tooManyDigits) := by
  obtain ⟨bodiesCanonical, bodiesWithin⟩ := reachable.bodies
  obtain ⟨canonical, within⟩ := build_keeps bodiesCanonical bodiesWithin built
  obtain ⟨g, hg, canonical, within⟩ := f.exists_derivatives axes canonical within
  have finished : g.Finished := Expr.Within.finished within
  refine ⟨g, hg, fun writable => ?_, print_eq_error finished⟩
  exact ⟨g.render, print_eq_ok finished writable, build_render canonical within writable⟩

/-- A registered square, read by its name and differentiated twice. -/
theorem build_print_square :
    let square : Expr := .binary .pow (.var 0) (.const 2)
    let ctx : Context := { functions := [(['f'], ⟨square, 1⟩)] }
    ctx.Reachable ∧ build ctx 1 ['f'] = .ok square ∧ square.derivatives [.x, .x] = .ok (.const 2) ∧
      ∃ shown, (Expr.const 2).print = .ok shown ∧ build {} 3 shown = .ok (.const 2) := by
  intro square ctx
  have canonical : square.Canonical :=
    ⟨trivial, trivial, by norm_num [Op.apply, Expr.power, Expr.powr]⟩
  have within : square.Within 3 := ⟨⟨by decide, by decide⟩, trivial⟩
  have made : Context.withFunction {} ['f'] square 1 = .ok ctx := rfl
  have reachable : ctx.Reachable :=
    .function .empty .empty (build_render canonical within ⟨trivial, Literal.isWritable_two⟩) made
  have built : build ctx 1 ['f'] = .ok square := by
    rw [build_named rfl rfl (by decide)]
    rfl
  obtain ⟨g, hg, shown, -⟩ := build_print reachable built [.x, .x]
  have slope : (Expr.binary .mul (.const 2) (.var 0)).derivative .x = .ok (.const 2) := by
    rw [Expr.derivative, Expr.derivative, Expr.derivative]
    refine congrArg Except.ok ?_
    norm_num [Expr.mul, Expr.scale, Expr.add]
  have twice : square.derivatives [.x, .x] = .ok (.const 2) := by
    rw [Expr.derivatives, List.foldlM_cons, Expr.derivative_square]
    exact (bind_pure _).trans slope
  rw [twice] at hg
  cases hg
  exact ⟨reachable, built, twice, shown Literal.isWritable_two⟩

/-- A power of ten is built of few characters, however many digits it has. -/
theorem reads_tens {ctx : Context} {dim : Nat} {ds : List Char} (exponent : IsNumeral ds)
    (short : ds.length ≤ Decimal.maxDigits) :
    Reads ctx dim .power ('1' :: '0' :: '^' :: ds) (.const (10 ^ numeral ds)) := by
  have ten : Reads ctx dim .primary ['1', '0'] (.const (numeral ['1', '0'])) :=
    .integer ⟨by simp, by simp⟩ (by decide)
  have value : numeral ['1', '0'] = 10 := rfl
  rw [value, Nat.cast_ofNat] at ten
  have power : Reads ctx dim .power _ _ := .join .pow (.single .pow ten) (.integer exponent short)
  have folded : Op.pow.apply (.const 10) (.const (numeral ds)) = .const (10 ^ numeral ds) := by
    have folded := constPow_intCast (c := 10) (numeral ds) (.inl (by norm_num))
    rwa [Int.cast_natCast, zpow_natCast] at folded
  rwa [folded] at power

/-- The tree of a text of seven characters that is not printed. -/
theorem build_print_tens :
    let text := ['1', '0', '^', '4', '3', '0', '0']
    let f := Expr.const (10 ^ 4300)
    Context.Reachable {} ∧ build {} 1 text = .ok f ∧ f.derivatives [] = .ok f ∧
      f.print = .error .tooManyDigits := by
  intro text f
  have exponent : IsNumeral ['4', '3', '0', '0'] := ⟨by simp, by simp⟩
  have phrase : Reads {} 1 .sum text (.const (10 ^ numeral ['4', '3', '0', '0'])) :=
    (reads_tens exponent (by decide)).loosen (by decide)
  have value : numeral ['4', '3', '0', '0'] = 4300 := rfl
  rw [value] at phrase
  have unwritable : ¬f.Writable := Bool.eq_false_iff.1 (Literal.isWritable_tens le_rfl)
  have built : build {} 1 text = .ok f := by
    have arity : Context.isArity 1 = true := rfl
    rw [build_eq_parse arity, Int.toNat_one, parse_phrase wellNamed_empty phrase]
  exact ⟨.empty, built, rfl, print_eq_error trivial unwritable⟩

end Fluxion
