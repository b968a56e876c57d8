import Fluxion.Proofs.Operands
import Fluxion.Proofs.RoundTrip

/-!
# What reading depends on

Reading is open recursion over the splits: `Split.tree` makes the tree of a split from a reader of
its operands, and `parse` ties the knot (`parse_split`). A statement on two readings is thus proved
for one split (`tree_congr`, `tree_mono`) and carried over to all texts by `operands_induction`.

Two such statements are shown. Every name that is ever looked up is a piece of the text, so contexts
that agree on the pieces of a text read it alike (`build_congr`). More axes turn more letters into
variables and let more functions be used; unless the context has entries for such a letter or for a
named function, whatever could be read is read as the same tree (`build_mono`).
-/

namespace Fluxion
set_option autoImplicit false
open Fluxion.Text

/-- A way to read texts. -/
abbrev Reader := List Char → Outcome Expr

/-- The tree of a text that is taken apart, with its operands read by `read`. -/
def Text.Split.tree (ctx : Context) (dim : Nat) (read : Reader) : Split → Outcome Expr
  | .atom token => Fluxion.atom ctx dim token
  | .negate a => do
    let f ← read a
    return f.neg
  | .binary op l r => do
    let f ← read l
    let g ← read r
    return op.apply f g
  | .call name a =>
    if name = [] then read a
    else match Kind.ofLetters? name with
      | none => registered ctx dim name
      | some kind =>
        match read a with
        | .ok f => .ok (.special kind f)
        | .error fault =>
          if fault.isParse ∧ (ctx.function? name).isSome then registered ctx dim name
          else .error fault

/-- The texts that are read when a text is taken apart. -/
def Text.Split.operands : Split → List (List Char)
  | .atom _ => []
  | .negate a => [a]
  | .binary _ l r => [l, r]
  | .call _ a => [a]

section Recursion

variable {ctx : Context} {dim : Nat} {text s : List Char} {parts : Split}

/-- A text that is cut is read from its operands. -/
theorem parse_split (unnamed : ctx.hasName text = false) (cut : split text = .ok parts) :
    parse ctx dim text = parts.tree ctx dim (parse ctx dim) := by
  cases parts with
  | atom token => exact parse_atom unnamed cut
  | negate a => exact parse_negate unnamed cut
  | binary op l r => exact parse_binary unnamed cut
  | call name a =>
    simp only [Split.tree]
    split
    · rename_i nothing
      subst nothing
      exact parse_brackets unnamed cut
    · rename_i nonempty
      split
      · rename_i other
        exact parse_applied unnamed cut nonempty other
      · rename_i kind found
        split
        · rename_i f ha
          exact parse_call unnamed cut nonempty found ha
        · rename_i fault ha
          exact parse_call_error unnamed cut nonempty found ha

/-- The operands are among the parts of a split. -/
theorem mem_parts_of_mem_operands (h : s ∈ parts.operands) : s ∈ parts.parts := by
  cases parts with
  | atom token => contradiction
  | negate a => exact h
  | binary op l r => exact h
  | call name a => exact List.mem_cons_of_mem _ h

theorem length_lt_of_mem_operands (cut : split text = .ok parts) (h : s ∈ parts.operands) :
    s.length < text.length := by
  have short := shorter_of_split cut
  cases parts with
  | atom token => contradiction
  | negate a =>
    obtain rfl := List.mem_singleton.1 h
    exact short
  | binary op l r =>
    obtain rfl | rfl := List.mem_pair.1 h
    · exact short.1
    · exact short.2
  | call name a =>
    obtain rfl := List.mem_singleton.1 h
    exact short

/-- What holds of a text whenever it holds of the operands that the text is split into holds of all
texts. -/
theorem operands_induction {P : List Char → Prop}
    (step : ∀ text, (∀ parts, split text = .ok parts → ∀ s ∈ parts.operands, P s) → P text)
    (text : List Char) : P text :=
  step text fun _ cut s hs =>
    have := length_lt_of_mem_operands cut hs
    operands_induction step s
termination_by text.length

end Recursion

section Contexts

variable {ctx ctx' : Context} {dim : Nat} {text name : List Char} {read read' : Reader}

/-- The contexts have the same function of a name, and symbols of the same value. -/
structure Context.AgreesOn (ctx ctx' : Context) (name : List Char) : Prop where
  function : ctx.function? name = ctx'.function? name
  symbol : (ctx.symbol? name).map Symbol.exact = (ctx'.symbol? name).map Symbol.exact

/-- A registration does not change what another name stands for. -/
theorem agreesOn_withFunction {f : Expr} {arity : Int} {other : List Char}
    (made : ctx.withFunction name f arity = .ok ctx') (ne : name ≠ other) :
    ctx.AgreesOn ctx' other where
  function := by rw [Context.function?_withFunction made, if_neg ne]
  symbol := by rw [Context.symbol?_withFunction made]

theorem hasName_congr (h : ctx.AgreesOn ctx' name) : ctx.hasName name = ctx'.hasName name := by
  have symbol := congrArg Option.isSome h.symbol
  simp only [Option.isSome_map] at symbol
  rw [Context.hasName, Context.hasName, h.function, symbol]

theorem registered_congr (h : ctx.AgreesOn ctx' name) :
    registered ctx dim name = registered ctx' dim name := by
  rw [registered, registered, h.function]

/-- A token is read from its own entry in the context. -/
theorem atom_congr (h : ctx.AgreesOn ctx' name) : atom ctx dim name = atom ctx' dim name := by
  have value := h.symbol
  unfold atom
  rw [h.function, registered_congr h]
  cases hs : ctx.symbol? name with
  | none =>
    rw [hs, Option.map_none, eq_comm, Option.map_eq_none_iff] at value
    rw [value]
  | some s =>
    rw [hs, Option.map_some, eq_comm, Option.map_eq_some_iff] at value
    obtain ⟨s', hs', same⟩ := value
    rw [hs']
    simp only [same]

/-- The tree of a split depends on the readings of its operands and on the entries of its parts. -/
theorem tree_congr {parts : Split} (agree : ∀ s ∈ parts.parts, ctx.AgreesOn ctx' s)
    (alike : ∀ s ∈ parts.operands, read s = read' s) :
    parts.tree ctx dim read = parts.tree ctx' dim read' := by
  cases parts with
  | atom token => exact atom_congr (agree token (List.mem_singleton_self _))
  | negate a => simp only [Split.tree, alike a (List.mem_singleton_self _)]
  | binary op l r =>
    have left := alike l (List.mem_cons_self ..)
    have right := alike r (List.mem_cons_of_mem _ (List.mem_singleton_self _))
    simp only [Split.tree, left, right]
  | call name a =>
    have entry := agree name (List.mem_cons_self ..)
    have operand := alike a (List.mem_singleton_self _)
    simp only [Split.tree, operand, registered_congr entry, entry.function]

/-- Contexts that agree on all pieces of a text read it alike. -/
theorem parse_congr (agree : ∀ name, name <:+: text → ctx.AgreesOn ctx' name) :
    parse ctx dim text = parse ctx' dim text := by
  induction text using operands_induction with
  | step text ih =>
    have named := hasName_congr (agree text List.infix_rfl)
    cases h : ctx.hasName text with
    | true => rw [parse_named h, parse_named (named ▸ h), atom_congr (agree text List.infix_rfl)]
    | false =>
      cases cut : split text with
      | error cause => rw [parse_error h cut, parse_error (named ▸ h) cut]
      | ok parts =>
        have pieces := infix_of_split cut
        rw [parse_split h cut, parse_split (named ▸ h) cut]
        refine tree_congr (fun s hs => agree s (pieces s hs)) fun s hs => ?_
        refine ih parts cut s hs fun name inside => ?_
        exact agree name (inside.trans (pieces s (mem_parts_of_mem_operands hs)))

/-- The entries of names that do not occur in a text, blanks removed, play no part in building it:
neither for the tree nor for an error. -/
theorem build_congr (agree : ∀ name, name <:+: withoutBlanks text → ctx.AgreesOn ctx' name)
    (dim : Int) : build ctx dim text = build ctx' dim text := by
  rw [build, build, parse_congr agree]

/-- A function with the name of a named function changes nothing where that name does not occur:
neither the tree of `f + x` nor the error of `f + w`. -/
theorem build_congr_unrelated :
    let f : Expr := .special .ln (.var 0)
    let ctx : Context := { functions := [(['f'], ⟨f, 1⟩)] }
    let ctx' : Context := { functions := [(['f'], ⟨f, 1⟩), (['s', 'i', 'n'], ⟨.e, 1⟩)] }
    let text := ['f', ' ', '+', ' ', 'x']
    let other := ['f', ' ', '+', ' ', 'w']
    (∀ name, name <:+: withoutBlanks text → ctx.AgreesOn ctx' name) ∧
      (∀ name, name <:+: withoutBlanks other → ctx.AgreesOn ctx' name) ∧
      build ctx 1 text = .ok (f.add (.var 0)) ∧ build ctx' 1 text = .ok (f.add (.var 0)) ∧
      build ctx 1 other = .error (.parse (.unknownToken ['w'])) ∧
      build ctx' 1 other = .error (.parse (.unknownToken ['w'])) := by
  intro f ctx ctx' text other
  have made : ctx.withFunction ['s', 'i', 'n'] .e 1 = .ok ctx' := rfl
  have agree (s : List Char) (lacks : ¬['s', 'i', 'n'] <:+: s) :
      ∀ name, name <:+: s → ctx.AgreesOn ctx' name := by
    intro name inside
    refine agreesOn_withFunction made ?_
    rintro rfl
    exact lacks inside
  have agreeText := agree (withoutBlanks text) (by decide)
  have agreeOther := agree (withoutBlanks other) (by decide)
  have arity : Context.isArity 1 = true := rfl
  have left : parse ctx 1 ['f'] = .ok f := by
    rw [parse_named rfl]
    rfl
  have built : build ctx 1 text = .ok (f.add (.var 0)) := by
    have blank : withoutBlanks text = ['f', '+', 'x'] := by decide
    have right : parse ctx 1 ['x'] = .ok (.var 0) := by
      rw [parse_atom (t := ['x']) rfl rfl]
      rfl
    have cut : split ['f', '+', 'x'] = .ok (.binary .add ['f'] ['x']) := rfl
    rw [build_eq_parse arity, blank, Int.toNat_one, parse_binary rfl cut, left, right]
    rfl
  have failed : build ctx 1 other = .error (.parse (.unknownToken ['w'])) := by
    have blank : withoutBlanks other = ['f', '+', 'w'] := by decide
    have right : parse ctx 1 ['w'] = .error (.parse (.unknownToken ['w'])) := by
      rw [parse_atom (t := ['w']) rfl rfl]
      rfl
    have cut : split ['f', '+', 'w'] = .ok (.binary .add ['f'] ['w']) := rfl
    rw [build_eq_parse arity, blank, Int.toNat_one, parse_binary rfl cut, left, right]
    rfl
  exact ⟨agreeText, agreeOther, built, (build_congr agreeText 1).symm.trans built, failed,
    (build_congr agreeOther 1).symm.trans failed⟩

end Contexts

section Axes

variable {ctx : Context} {d d' : Nat} {text token : List Char} {f : Expr}

/-- No entry has the name of an axis that a text may lack, or of a named function. -/
def Context.AvoidsReserved (ctx : Context) : Prop :=
  ∀ name, ctx.hasName name = true → name ≠ ['y'] ∧ name ≠ ['z'] ∧ ∀ k : Kind, name ≠ k.letters

theorem Context.hasName_eq_false_iff {name : List Char} :
    ctx.hasName name = false ↔ ctx.function? name = none ∧ ctx.symbol? name = none := by
  simp [hasName]

theorem Context.WellNamed.avoidsReserved (named : ctx.WellNamed) : ctx.AvoidsReserved := by
  intro name registered
  obtain ⟨-, letters, -, -, noKind⟩ := named name registered
  have noAxis (a : Axis) : name ≠ [a.letter] := by
    rintro rfl
    have other := (letters _ (List.mem_singleton_self _)).other
    cases a <;> contradiction
  exact ⟨noAxis .y, noAxis .z, noKind⟩

/-- Nothing is registered under the name of a named function. -/
theorem Context.AvoidsReserved.noFunction (avoids : ctx.AvoidsReserved) {name : List Char}
    {k : Kind} (kind : Kind.ofLetters? name = some k) : ctx.function? name = none := by
  have unnamed : ctx.hasName name = false := by
    rw [← Bool.not_eq_true]
    intro named
    exact (avoids name named).2.2 k (Kind.letters_of_ofLetters? kind).symm
  exact (Context.hasName_eq_false_iff.1 unnamed).1

/-- A function of few enough variables stays usable. -/
theorem registered_mono (le : d ≤ d') (h : registered ctx d token = .ok f) :
    registered ctx d' token = .ok f := by
  unfold registered at h
  split at h
  · contradiction
  · rename_i entry found
    split at h
    · contradiction
    · cases h
      exact registered_eq_ok found (by omega)

/-- The letter of a lacking axis names nothing. -/
theorem atom_of_lacking (avoids : ctx.AvoidsReserved) {a : Axis} (positive : 0 < d)
    (lacking : d ≤ a.index) :
    atom ctx d [a.letter] = .error (.parse (.unknownToken [a.letter])) := by
  have noVariable : axisVariable? d [a.letter] = none := by
    have found : Axis.ofLetter? a.letter = some a := by cases a <;> rfl
    simp [axisVariable?, found, Nat.not_lt.2 lacking]
  have unnamed : ctx.hasName [a.letter] = false := by
    rw [← Bool.not_eq_true]
    intro named
    obtain ⟨notY, notZ, -⟩ := avoids _ named
    cases a with
    | x => exact absurd lacking (Nat.not_le.2 positive)
    | y => exact notY rfl
    | z => exact notZ rfl
  obtain ⟨noFunction, noSymbol⟩ := Context.hasName_eq_false_iff.1 unnamed
  have noLiteral : Literal.read [a.letter] = .ok none := by cases a <;> rfl
  have notE : [a.letter] ≠ ['e'] := by cases a <;> decide
  have notPi : [a.letter] ≠ ['p', 'i'] := by cases a <;> decide
  unfold atom
  rw [noVariable, if_neg notE, if_neg notPi, noLiteral, noFunction, noSymbol]
  rfl

/-- In more dimensions a token that was read is read as the same tree. -/
theorem atom_mono (avoids : ctx.AvoidsReserved) (positive : 0 < d) (le : d ≤ d')
    (h : atom ctx d token = .ok f) : atom ctx d' token = .ok f := by
  by_cases letter : ∃ a : Axis, token = [a.letter]
  · obtain ⟨a, rfl⟩ := letter
    by_cases inside : a.index < d
    · rw [atom_axis inside] at h
      rw [atom_axis (by omega)]
      exact h
    · rw [atom_of_lacking avoids positive (Nat.not_lt.1 inside)] at h
      contradiction
  · have noVariable (n : Nat) : axisVariable? n token = none := by
      refine axisVariable?_other ?_
      rintro c rfl
      rw [← Bool.not_eq_true, isAxisLetter_iff]
      rintro ⟨a, rfl⟩
      exact letter ⟨a, rfl⟩
    -- The rest of the look-up asks for the number of axes only where a function is used.
    unfold atom at h ⊢
    rw [noVariable] at h ⊢
    dsimp only at h ⊢
    split at h
    · rename_i isE
      rw [if_pos isE]
      exact h
    · rename_i notE
      rw [if_neg notE]
      split at h
      · rename_i isPi
        rw [if_pos isPi]
        exact h
      · rename_i notPi
        rw [if_neg notPi]
        split at h
        · contradiction
        · exact h
        · split at h
          · rename_i isFunction
            exact (if_pos isFunction).trans (registered_mono le h)
          · rename_i noFunction
            exact (if_neg noFunction).trans h

/-- A tree that a split has over fewer axes, it has over more axes. -/
theorem tree_mono (avoids : ctx.AvoidsReserved) (positive : 0 < d) (le : d ≤ d') {parts : Split}
    {read read' : Reader}
    (keeps : ∀ s ∈ parts.operands, ∀ g, read s = .ok g → read' s = .ok g)
    (h : parts.tree ctx d read = .ok f) : parts.tree ctx d' read' = .ok f := by
  cases parts with
  | atom token => exact atom_mono avoids positive le h
  | negate a =>
    obtain ⟨g, hg, done⟩ := bind_eq_ok.1 h
    exact bind_eq_ok.2 ⟨g, keeps a (List.mem_singleton_self _) g hg, done⟩
  | binary op l r =>
    obtain ⟨g, hg, h⟩ := bind_eq_ok.1 h
    obtain ⟨k, hk, done⟩ := bind_eq_ok.1 h
    have left := keeps l (List.mem_cons_self ..) g hg
    have right := keeps r (List.mem_cons_of_mem _ (List.mem_singleton_self _)) k hk
    exact bind_eq_ok.2 ⟨g, left, bind_eq_ok.2 ⟨k, right, done⟩⟩
  | call name a =>
    have operand := keeps a (List.mem_singleton_self _)
    simp only [Split.tree] at h ⊢
    split at h
    · rename_i nothing
      rw [if_pos nothing]
      exact operand f h
    · rename_i nonempty
      rw [if_neg nonempty]
      cases kind : Kind.ofLetters? name with
      | none =>
        rw [kind] at h
        exact registered_mono le h
      | some k =>
        cases ha : read a with
        | ok g =>
          rw [kind, ha] at h
          rw [operand g ha]
          exact h
        | error fault =>
          -- A failing argument is never made up for: no entry has the name of the function.
          rw [kind, ha] at h
          simp [avoids.noFunction kind] at h

/-- What can be read over fewer axes is read as the same tree over more axes. -/
theorem parse_mono (avoids : ctx.AvoidsReserved) (positive : 0 < d) (le : d ≤ d')
    (h : parse ctx d text = .ok f) : parse ctx d' text = .ok f := by
  induction text using operands_induction generalizing f with
  | step text ih =>
    cases named : ctx.hasName text with
    | true =>
      rw [parse_named named] at h ⊢
      exact atom_mono avoids positive le h
    | false =>
      cases cut : split text with
      | error cause =>
        rw [parse_error named cut] at h
        contradiction
      | ok parts =>
        rw [parse_split named cut] at h ⊢
        exact tree_mono avoids positive le (fun s hs g hg => ih parts cut s hs hg) h

/-- What can be built over `d` axes is built as the same tree over more axes. -/
theorem build_mono (avoids : ctx.AvoidsReserved) {n n' : Int} (le : n ≤ n') (upper : n' ≤ 3)
    (built : build ctx n text = .ok f) : build ctx n' text = .ok f := by
  obtain ⟨arity, read⟩ := build_eq_ok built
  simp only [Context.isArity, Bool.or_eq_true, decide_eq_true_eq] at arity
  have arity' : Context.isArity n' = true := by
    simp only [Context.isArity, Bool.or_eq_true, decide_eq_true_eq]
    omega
  rw [build_eq_parse arity', parse_mono avoids (by omega) (by omega) read]

/-- The product of a registered sum of two variables and a variable, over the plane and in space. -/
theorem build_mono_sum :
    let sum := (Expr.var 0).add (.var 1)
    let ctx : Context := { functions := [(['k'], ⟨sum, 2⟩)] }
    ctx.AvoidsReserved ∧ build ctx 2 ['k', '(', 'x', ')', 'y'] = .ok (sum.mul (.var 1)) ∧
      build ctx 3 ['k', '(', 'x', ')', 'y'] = .ok (sum.mul (.var 1)) := by
  intro sum ctx
  have named : ctx.WellNamed := by
    refine wellNamed_of_only_k fun name registered => ?_
    by_contra other
    simp [ctx, Context.hasName, Context.function?, Context.symbol?, find?, Ne.symm other]
      at registered
  have x : Reads ctx 2 .sum ['x'] (.var 0) :=
    .single .add (.single .mul (.single .pow (.axis .x (by decide))))
  have found : ctx.function? ['k'] = some ⟨sum, 2⟩ := rfl
  have k : Reads ctx 2 .product (['k'] ++ '(' :: (['x'] ++ [')'])) sum :=
    .single .mul (.single .pow (.applied found (by decide) (by decide) (by decide) x))
  have phrase : Reads ctx 2 .sum ['k', '(', 'x', ')', 'y'] (sum.mul (.var 1)) :=
    .single .add (.juxtaposed k (.single .pow (.axis .y (by decide))) ⟨')', rfl, by decide⟩
      (by simp))
  have built : build ctx 2 ['k', '(', 'x', ')', 'y'] = .ok (sum.mul (.var 1)) := by
    have arity : Context.isArity 2 = true := rfl
    rw [build_eq_parse arity, show (2 : Int).toNat = 2 from rfl, parse_phrase named phrase]
  exact ⟨named.avoidsReserved, built, build_mono named.avoidsReserved (by decide) (by decide) built⟩

end Axes

end Fluxion
