import Fluxion.Proofs.RoundTrip

/-!
# Canonical trees are not changed by rebuilding

Rebuilding a tree from its leaves upward makes a canonical tree, whatever the tree was, so the
canonical trees are those that rebuilding gives back (`canonical_iff`). They are closed under
everything that makes trees: the constructors, powers with a constant exponent, differentiation, and
reading a text where all registered functions are canonical (`canonical_closed`).

A finished tree is printed in such a way that reading rebuilds it, whether it is canonical or not
(`build_print_rebuild`): no bracket is missing, on either side of any operation. So two trees are
printed alike only if they are rebuilt alike (`rebuild_eq_of_print_eq`).
-/

namespace Fluxion.Expr
set_option autoImplicit false

/-- No call in the tree is unresolved. -/
abbrev Resolved : Expr → Prop := Over fun _ => True

theorem Canonical.resolved {f : Expr} (h : f.Canonical) : f.Resolved := by
  induction f with
  | var | e | pi | const => trivial
  | binary op l r ihl ihr => exact ⟨ihl h.1, ihr h.2.1⟩
  | comp => exact h
  | special k a ih => exact ih h

theorem canonical_rebuild {f : Expr} (resolved : f.Resolved) : f.rebuild.Canonical := by
  induction f with
  | var | e | pi | const => trivial
  | binary op l r ihl ihr => exact canonical_apply op (ihl resolved.1) (ihr resolved.2)
  | comp => exact resolved.elim
  | special k a ih => exact ih resolved

/-- The canonical trees are the resolved ones that rebuilding gives back. -/
theorem canonical_iff {f : Expr} : f.Canonical ↔ f.Resolved ∧ f.rebuild = f := by
  constructor
  · intro canonical
    exact ⟨canonical.resolved, canonical.rebuild_eq⟩
  · rintro ⟨resolved, same⟩
    rw [← same]
    exact canonical_rebuild resolved

/-- What the constructors, differentiation and reading make of canonical trees is canonical. -/
theorem canonical_closed {f g : Expr} (hf : f.Canonical) (hg : g.Canonical) {ctx : Context}
    (bodies : ctx.Bodies Canonical) :
    ((add f g).Canonical ∧ (sub f g).Canonical ∧ (mul f g).Canonical ∧ (div f g).Canonical ∧
      (power f g).Canonical ∧ (∀ r, (powr f r).Canonical) ∧ (neg f).Canonical ∧
      (sqrt f).Canonical) ∧
    (∀ along, (∀ d, f.derivative along = .ok d → d.Canonical) ∧
      (f.Finished → ∃ d, f.derivative along = .ok d)) ∧
    ∀ dim text t, build ctx dim text = .ok t →
      t.Canonical ∧ t.Resolved ∧ t.rebuild = t := by
  refine ⟨⟨canonical_add hf hg, canonical_sub hf hg, canonical_mul hf hg, canonical_div hf hg,
    canonical_power hf hg, fun r => canonical_powr r hf, canonical_neg hf, canonical_powr _ hf⟩,
    fun along => ⟨fun d => stable_canonical.derivative hf, exists_derivative along⟩, ?_⟩
  intro dim text t built
  obtain ⟨-, read⟩ := build_eq_ok built
  have canonical : t.Canonical :=
    parse_keeps stable_canonical trivial (fun _ _ => trivial) (bodies.usable _) read
  exact ⟨canonical, canonical_iff.1 canonical⟩

/-- The square of `x`, the sine of it, and a context where the square is registered. -/
theorem canonical_closed_square :
    let f := binary .pow (var 0) (const 2)
    let g := special .sin f
    let ctx : Context := { functions := [(['s'], ⟨f, 1⟩)] }
    f.Canonical ∧ g.Canonical ∧ ctx.Bodies Canonical ∧ f.Finished ∧
      (mul f g).Canonical ∧ (∃ d, f.derivative .x = .ok d ∧ d.Canonical) ∧
      ∀ text t, build ctx 1 text = .ok t → t.rebuild = t := by
  intro f g ctx
  have canonical : f.Canonical :=
    ⟨trivial, trivial, by norm_num [f, Op.apply, Expr.power, powr]⟩
  have finished : f.Finished := ⟨⟨.x, rfl⟩, trivial⟩
  have sine : g.Canonical := canonical
  have made : Context.withFunction {} ['s'] f 1 = .ok ctx := rfl
  have bodies : ctx.Bodies Canonical :=
    Context.bodies_withFunction (Context.bodies_empty _) canonical made
  obtain ⟨constructors, derivatives, read⟩ := canonical_closed canonical sine bodies
  obtain ⟨keeps, succeeds⟩ := derivatives .x
  obtain ⟨d, hd⟩ := succeeds finished
  exact ⟨canonical, sine, bodies, finished, constructors.2.2.1, ⟨d, hd, keeps d hd⟩,
    fun text t built => (read 1 text t built).2.2⟩

/-- What is printed of a tree, if anything is. -/
theorem writable_of_print {f : Expr} {shown : List Char} (within : f.Within 3)
    (printed : f.print = .ok shown) : f.Writable ∧ shown = f.render := by
  have writable : f.Writable := by
    by_contra unwritable
    rw [print_eq_error within.finished unwritable] at printed
    contradiction
  rw [print_eq_ok within.finished writable] at printed
  exact ⟨writable, (Except.ok.inj printed).symm⟩

/-- Trees that are printed as the same text are rebuilt as the same tree. -/
theorem rebuild_eq_of_print_eq {f g : Expr} {shown : List Char} (hf : f.Within 3)
    (hg : g.Within 3) (printed : f.print = .ok shown) (printed' : g.print = .ok shown) :
    f.rebuild = g.rebuild := by
  obtain ⟨writable, rfl⟩ := writable_of_print hf printed
  obtain ⟨writable', same⟩ := writable_of_print hg printed'
  have arity : Context.isArity 3 = true := rfl
  have left : build {} 3 f.render = .ok f.rebuild :=
    build_render_rebuild wellNamed_empty arity hf writable
  have right : build {} 3 g.render = .ok g.rebuild :=
    build_render_rebuild wellNamed_empty arity hg writable'
  rw [same, right] at left
  exact (Except.ok.inj left).symm

/-- A finished tree can be printed unless one of its constants has too many digits, and what is
printed is built as the tree made again by the constructors. -/
theorem build_print_rebuild {f : Expr} (within : f.Within 3) :
    (f.Writable → ∃ shown, f.print = .ok shown ∧ build {} 3 shown = .ok f.rebuild) ∧
      (¬f.Writable → f.print = .error .tooManyDigits) := by
  refine ⟨fun writable => ?_, print_eq_error within.finished⟩
  exact ⟨f.render, print_eq_ok within.finished writable,
    build_render_rebuild wellNamed_empty rfl within writable⟩

/-- The tree of `x-(0-(-1/2))` is not canonical, and its text is built as `x-1/2`. -/
theorem build_print_rebuild_difference :
    let f := binary .sub (var 0) (binary .sub (const 0) (const (-1 / 2)))
    f.Within 3 ∧ ¬f.Canonical ∧ ∃ shown, f.print = .ok shown ∧
      build {} 3 shown = .ok (binary .sub (var 0) (const (1 / 2))) := by
  intro f
  have within : f.Within 3 := ⟨⟨by decide, by decide⟩, trivial, trivial⟩
  have half : sub (const 0) (const (-1 / 2)) = const (1 / 2) := by
    rw [sub_zero_left]
    norm_num [neg, scale]
  have rebuilt : f.rebuild = binary .sub (var 0) (const (1 / 2)) := by
    show sub (var 0) (sub (const 0) (const (-1 / 2))) = _
    rw [half]
    simp [sub, collect, coefficient]
  have notCanonical : ¬f.Canonical := by
    intro canonical
    rw [canonical.rebuild_eq] at rebuilt
    simp [f] at rebuilt
  have writable : f.Writable :=
    ⟨trivial, Literal.isWritable_of_lt (by decide) (by decide),
      Literal.isWritable_of_lt (by decide +kernel) (by decide +kernel)⟩
  obtain ⟨shown, printed, built⟩ := (build_print_rebuild within).1 writable
  rw [rebuilt] at built
  exact ⟨within, notCanonical, shown, printed, built⟩

/-- The tree of `10^4300-x` is finished, but it is not printed. -/
theorem build_print_rebuild_tens :
    let f := binary .sub (const (10 ^ 4300)) (var 0)
    f.Within 3 ∧ f.print = .error .tooManyDigits := by
  intro f
  have within : f.Within 3 := ⟨trivial, by decide, by decide⟩
  have unwritable : ¬f.Writable := fun writable =>
    Bool.eq_false_iff.1 (Literal.isWritable_tens le_rfl) writable.1
  exact ⟨within, print_eq_error within.finished unwritable⟩

end Fluxion.Expr
