import Fluxion.Fault

/-!
# Contexts

A context names functions, with the number of variables they use, and symbols, with their
values. Registering a name again replaces its entry. A symbol stands for an exact fraction:
for the decimal that its value is written as when that is written positionally, and for the
double itself otherwise.
-/

namespace Fluxion
set_option autoImplicit false

/-- The fraction that a double stands for. -/
def fractionOf (x : Float) : Outcome Rat :=
  match Decimal.decode x with
  | .nan => .error .notANumber
  | .infinite _ => .error .tooLarge
  | .finite negative m q =>
    let shown := Decimal.shortest m q
    let size :=
      if m = 0 then 0
      else if Decimal.isPositional shown.leading then shown.toRat
      else Decimal.scaledRat m q
    .ok (if negative then -size else size)

/-- The value of a symbol: as it was given, and the fraction that it stands for. -/
structure Symbol where
  shown : Float
  exact : Rat

/-- A registered function: its tree and the number of variables it uses. -/
structure Entry where
  tree : Expr
  arity : Nat
  deriving DecidableEq

/-- Named functions and symbols. -/
structure Context where
  functions : List (List Char × Entry) := []
  symbols : List (List Char × Symbol) := []

/-- The entries with the one of `name` replaced, or added at the end. -/
def replace {α : Type} (name : List Char) (a : α) :
    List (List Char × α) → List (List Char × α)
  | [] => [(name, a)]
  | (other, b) :: rest =>
    if other = name then (name, a) :: rest else (other, b) :: replace name a rest

/-- The entry of a name. -/
def find? {α : Type} (name : List Char) : List (List Char × α) → Option α
  | [] => none
  | (other, b) :: rest => if other = name then some b else find? name rest

/-- A replaced entry is found under its name, and every other one as before. -/
theorem find?_replace {α : Type} (name other : List Char) (a : α)
    (entries : List (List Char × α)) :
    find? other (replace name a entries) =
      if name = other then some a else find? other entries := by
  induction entries with
  | nil => simp [replace, find?]
  | cons entry rest ih =>
    obtain ⟨key, b⟩ := entry
    by_cases h : key = name
    · subst h; by_cases o : key = other <;> simp [replace, find?, o]
    · by_cases o : key = other
      · subst o; simp [replace, find?, h, Ne.symm h]
      · simp [replace, find?, h, o, ih]

namespace Context

/-- The function of a name. -/
def function? (ctx : Context) (name : List Char) : Option Entry := find? name ctx.functions

/-- The symbol of a name. -/
def symbol? (ctx : Context) (name : List Char) : Option Symbol := find? name ctx.symbols

/-- Whether a name is registered. -/
def hasName (ctx : Context) (name : List Char) : Bool :=
  (ctx.function? name).isSome || (ctx.symbol? name).isSome

/-- Whether a function may have that many variables. -/
def isArity (n : Int) : Bool := n = 1 || n = 2 || n = 3

/-- The context with a function registered. -/
def withFunction (ctx : Context) (name : List Char) (tree : Expr) (arity : Int) : Outcome Context :=
  if isArity arity then
    .ok { ctx with functions := replace name ⟨tree, arity.toNat⟩ ctx.functions }
  else .error (.badCount (Fault.integerText arity))

/-- The context with a symbol registered; its value must be finite. -/
def withSymbol (ctx : Context) (name : List Char) (value : Float) : Outcome Context :=
  match fractionOf value with
  | .ok exact => .ok { ctx with symbols := replace name ⟨value, exact⟩ ctx.symbols }
  | .error _ => .error (.symbolNotFinite name value)

section Lookup

variable {ctx ctx' : Context} {name : List Char} {tree : Expr} {arity : Int} {value : Float}

/-- A function that is accepted is entered under its name. -/
theorem withFunction_eq_ok (made : ctx.withFunction name tree arity = .ok ctx') :
    ctx' = { ctx with functions := replace name ⟨tree, arity.toNat⟩ ctx.functions } := by
  unfold withFunction at made
  split at made
  · exact (Except.ok.inj made).symm
  · contradiction

/-- A symbol that is accepted is entered with the fraction of its value. -/
theorem withSymbol_eq_ok (made : ctx.withSymbol name value = .ok ctx') :
    ∃ exact, fractionOf value = .ok exact ∧
      ctx' = { ctx with symbols := replace name ⟨value, exact⟩ ctx.symbols } := by
  unfold withSymbol at made
  split at made
  · rename_i exact finite
    exact ⟨exact, finite, (Except.ok.inj made).symm⟩
  · contradiction

theorem function?_withFunction (made : ctx.withFunction name tree arity = .ok ctx')
    (other : List Char) :
    ctx'.function? other =
      if name = other then some ⟨tree, arity.toNat⟩ else ctx.function? other := by
  rw [withFunction_eq_ok made]
  exact find?_replace ..

theorem symbol?_withFunction (made : ctx.withFunction name tree arity = .ok ctx')
    (other : List Char) : ctx'.symbol? other = ctx.symbol? other := by
  rw [withFunction_eq_ok made]
  rfl

theorem function?_withSymbol (made : ctx.withSymbol name value = .ok ctx') (other : List Char) :
    ctx'.function? other = ctx.function? other := by
  obtain ⟨exact, -, rfl⟩ := withSymbol_eq_ok made
  rfl

theorem symbol?_withSymbol (made : ctx.withSymbol name value = .ok ctx') :
    ∃ exact, fractionOf value = .ok exact ∧ ∀ other,
      ctx'.symbol? other = if name = other then some ⟨value, exact⟩ else ctx.symbol? other := by
  obtain ⟨exact, finite, rfl⟩ := withSymbol_eq_ok made
  exact ⟨exact, finite, fun other => find?_replace ..⟩

/-- A function brings in its own name and no other. -/
theorem hasName_withFunction (made : ctx.withFunction name tree arity = .ok ctx')
    {other : List Char} (h : ctx'.hasName other = true) :
    name = other ∨ ctx.hasName other = true := by
  rw [hasName, function?_withFunction made, symbol?_withFunction made] at h
  by_cases same : name = other
  · exact .inl same
  · rw [if_neg same] at h
    exact .inr h

theorem hasName_withSymbol (made : ctx.withSymbol name value = .ok ctx')
    {other : List Char} (h : ctx'.hasName other = true) :
    name = other ∨ ctx.hasName other = true := by
  obtain ⟨exact, -, found⟩ := symbol?_withSymbol made
  rw [hasName, function?_withSymbol made, found] at h
  by_cases same : name = other
  · exact .inl same
  · rw [if_neg same] at h
    exact .inr h

end Lookup

end Context

end Fluxion
