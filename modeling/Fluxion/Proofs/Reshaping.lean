import Fluxion.Proofs.Dependence
import Fluxion.Proofs.Dimension
import Fluxion.Proofs.Rounding

/-!
# Texts that differ in the shape of brackets

Names are looked up as they are written, so no registered name may hold a bracket
(`Context.Unbracketed`); a session of registrations sees to that (`unbracketed_session`). Then the
look-up of a token commutes with rounding, and so does the reading of a whole text
(`parse_rounded`), where the texts that an error quotes are rounded as well. Texts that differ in
the shape of brackets only (`Reshaped`) have the same rounded text: they are built as the same tree,
or fail with errors of one class (`alike_of_reshaped`).
-/

namespace Fluxion
set_option autoImplicit false
open Fluxion.Text

section Reading

variable {ctx : Context} {dim : Nat} {s t text : List Char}

/-- No registered name holds a bracket. -/
def Context.Unbracketed (ctx : Context) : Prop :=
  ∀ name, ctx.hasName name = true → NoBracket name

theorem unbracketed_empty : Context.Unbracketed {} := by
  intro name named
  contradiction

/-- The name that is registered. -/
def Registration.name : Registration → List Char
  | symbol name _ => name
  | function name _ _ => name

/-- A registration adds its own name and no other. -/
theorem hasName_run {ctx' : Context} {step : Registration} (made : step.run ctx = .ok ctx')
    {other : List Char} (h : ctx'.hasName other = true) :
    step.name = other ∨ ctx.hasName other = true := by
  cases step with
  | symbol => exact Context.hasName_withSymbol made h
  | function =>
    obtain ⟨tree, -, made⟩ := bind_eq_ok.1 made
    exact Context.hasName_withFunction made h

/-- A registration under a name without brackets adds no name with brackets. -/
theorem unbracketed_run {ctx' : Context} {step : Registration} (bare : ctx.Unbracketed)
    (h : NoBracket step.name) (made : step.run ctx = .ok ctx') : ctx'.Unbracketed := by
  intro other named
  obtain rfl | named := hasName_run made named
  · exact h
  · exact bare other named

/-- So a session that registers no name with brackets leaves none. -/
theorem unbracketed_session {ctx' : Context} {steps : List Registration}
    (bare : ctx.Unbracketed) (h : ∀ step ∈ steps, NoBracket step.name)
    (filled : steps.foldlM Registration.run ctx = .ok ctx') : ctx'.Unbracketed :=
  session_keeps (fun step hs _ _ bare made => unbracketed_run bare (h step hs) made) bare filled

/-- The error with round brackets only. -/
def ParseError.rounded : ParseError → ParseError
  | unknownToken token => unknownToken (Text.rounded token)
  | dimensionMismatch name => dimensionMismatch (Text.rounded name)
  | cause => cause

namespace Fault

/-- The fault with round brackets only, if a text is to blame. -/
def rounded : Fault → Fault
  | parse cause => parse cause.rounded
  | fault => fault

@[simp] theorem isParse_rounded (fault : Fault) : fault.rounded.isParse = fault.isParse := by
  cases fault <;> rfl

/-- A fault of the text comes with its cause. -/
theorem exists_of_isParse {fault : Fault} (h : fault.isParse = true) :
    ∃ cause, fault = parse cause := by
  cases fault with
  | parse cause => exact ⟨cause, rfl⟩
  | _ => contradiction

/-- No other fault quotes the text that was read. -/
theorem rounded_of_not_isParse {fault : Fault} (h : fault.isParse = false) :
    fault.rounded = fault := by
  cases fault with
  | parse => contradiction
  | _ => rfl

end Fault

/-- The reading, with round brackets only in the text of an error. -/
abbrev roundError (x : Outcome Expr) : Outcome Expr := x.mapError Fault.rounded

section Tokens

/-- A name with brackets is not registered, however they are shaped. -/
theorem function?_rounded (bare : ctx.Unbracketed) (name : List Char) :
    ctx.function? (rounded name) = ctx.function? name :=
  lookup_rounded (fun name _ found => bare name (Context.hasName_of_function? found)) name

theorem symbol?_rounded (bare : ctx.Unbracketed) (name : List Char) :
    ctx.symbol? (rounded name) = ctx.symbol? name :=
  lookup_rounded (fun name _ found => bare name (Context.hasName_of_symbol? found)) name

/-- Whether a text is a name does not depend on the shape of its brackets. -/
theorem hasName_rounded (bare : ctx.Unbracketed) (name : List Char) :
    ctx.hasName (rounded name) = ctx.hasName name := by
  rw [Context.hasName, Context.hasName, function?_rounded bare, symbol?_rounded bare]

theorem noBracket_letters (k : Kind) : NoBracket k.letters :=
  noBracket_of_plain fun _ hc => plain_of_isLetter (nameLetter_of_kind hc).letter

/-- A text is the name of a named function only if it has no brackets. -/
theorem ofLetters?_rounded (name : List Char) :
    Kind.ofLetters? (rounded name) = Kind.ofLetters? name := by
  refine lookup_rounded ?_ name
  intro name k found
  obtain rfl := Kind.letters_of_ofLetters? found
  exact noBracket_letters k

theorem axisVariable?_rounded (token : List Char) :
    axisVariable? dim (rounded token) = axisVariable? dim token := by
  cases token with
  | nil => rfl
  | cons c rest =>
    cases rest with
    | nil => simp only [rounded_cons, rounded_nil, axisVariable?, ofLetter?_roundBracket]
    | cons => rfl

theorem digitValues?_rounded (s : List Char) :
    Literal.digitValues? (rounded s) = Literal.digitValues? s := by
  induction s with
  | nil => rfl
  | cons c s ih => simp only [rounded_cons, Literal.digitValues?, decimalValue?_roundBracket, ih]

theorem run?_rounded (s : List Char) : Literal.run? (rounded s) = Literal.run? s := by
  simp only [Literal.run?, digitValues?_rounded, rounded_eq_nil_iff]

/-- A bracket is no point, so a text is cut at the same place. -/
theorem cutAtPoint_rounded (s : List Char) :
    Literal.cutAtPoint (rounded s) =
      (rounded (Literal.cutAtPoint s).1, (Literal.cutAtPoint s).2.map rounded) := by
  induction s with
  | nil => rfl
  | cons c s ih =>
    have point : roundBracket c = '.' ↔ c = '.' := roundBracket_eq_iff rfl rfl
    simp only [rounded_cons, Literal.cutAtPoint, point, ih]
    split <;> rfl

/-- A text with brackets is no literal, however they are shaped. -/
theorem value?_rounded (s : List Char) : Literal.value? (rounded s) = Literal.value? s := by
  unfold Literal.value?
  rw [cutAtPoint_rounded]
  obtain ⟨whole, fraction⟩ := Literal.cutAtPoint s
  cases fraction with
  | none => simp only [Option.map_none, run?_rounded]
  | some fraction => simp only [Option.map_some, run?_rounded]

theorem line?_rounded (s : List Char) : Literal.line? (rounded s) = Literal.line? s := by
  have last : (rounded s).getLast? = some '\n' ↔ s.getLast? = some '\n' := by
    simp [rounded, List.getLast?_map, @roundBracket_eq_iff _ '\n' rfl rfl]
  simp only [Literal.line?_eq, last, ← rounded_dropLast, value?_rounded]

/-- Rounding changes no digit. -/
theorem isReadable_rounded (s : List Char) :
    Literal.isReadable (rounded s) = Literal.isReadable s := by
  have digit : Unicode.isDecimalDigit ∘ roundBracket = Unicode.isDecimalDigit := by
    funext c
    simp only [Function.comp, Unicode.isDecimalDigit, decimalValue?_roundBracket]
  rw [Literal.isReadable, Literal.isReadable, rounded, List.countP_map, digit]

theorem read_rounded (s : List Char) : Literal.read (rounded s) = Literal.read s := by
  rw [Literal.read, Literal.read, line?_rounded, isReadable_rounded]

/-- The error for a name quotes it, so it is rounded with it. -/
theorem registered_rounded (bare : ctx.Unbracketed) (name : List Char) :
    registered ctx dim (rounded name) = roundError (registered ctx dim name) := by
  unfold registered
  rw [function?_rounded bare]
  cases ctx.function? name with
  | none => rfl
  | some entry =>
    by_cases small : dim < entry.arity
    · simp only [if_pos small]
      rfl
    · simp only [if_neg small]
      rfl

/-- Every look-up of a token commutes with rounding, and the last error quotes the token. -/
theorem atom_rounded (bare : ctx.Unbracketed) (token : List Char) :
    atom ctx dim (rounded token) = roundError (atom ctx dim token) := by
  have isE : rounded token = ['e'] ↔ token = ['e'] :=
    rounded_eq_iff (noBracket_of_plain fun c hc => plain_of_isLetter (nameLetters_e c hc).letter)
  have isPi : rounded token = ['p', 'i'] ↔ token = ['p', 'i'] :=
    rounded_eq_iff (noBracket_of_plain fun c hc => plain_of_isLetter (nameLetters_pi c hc).letter)
  unfold atom
  simp only [axisVariable?_rounded, isE, isPi, read_rounded, function?_rounded bare,
    symbol?_rounded bare, registered_rounded bare]
  -- In the order in which a token is looked up; only the last error has the token in it.
  cases axisVariable? dim token with
  | some f => rfl
  | none =>
    by_cases e : token = ['e']
    · simp only [if_pos e]
      rfl
    by_cases pi : token = ['p', 'i']
    · simp only [if_neg e, if_pos pi]
      rfl
    simp only [if_neg e, if_neg pi]
    cases read : Literal.read token with
    | error fault =>
      obtain ⟨rfl, -⟩ := Literal.read_eq_error_iff.1 read
      rfl
    | ok value =>
      cases value with
      | some q => rfl
      | none =>
        by_cases function : (ctx.function? token).isSome = true
        · simp only [if_pos function]
        · simp only [if_neg function]
          cases ctx.symbol? token <;> rfl

end Tokens

theorem rounded_bind {x : Outcome Expr} {k k' : Expr → Outcome Expr}
    (same : ∀ f, k f = roundError (k' f)) : (roundError x >>= k) = roundError (x >>= k') := by
  cases x with
  | ok f => exact same f
  | error fault => rfl

/-- The tree of a rounded split, when its operands are read up to rounding. -/
theorem tree_rounded (bare : ctx.Unbracketed) {parts : Split} {read : Reader}
    (alike : ∀ s ∈ parts.operands, read (rounded s) = roundError (read s)) :
    parts.rounded.tree ctx dim read = roundError (parts.tree ctx dim read) := by
  cases parts with
  | atom token => exact atom_rounded bare token
  | negate a =>
    simp only [Split.rounded, Split.tree, alike a (List.mem_singleton_self _)]
    exact rounded_bind fun f => rfl
  | binary op l r =>
    have right := alike r (List.mem_cons_of_mem _ (List.mem_singleton_self _))
    simp only [Split.rounded, Split.tree, alike l (List.mem_cons_self ..), right]
    exact rounded_bind fun f => rounded_bind fun g => rfl
  | call name a =>
    have operand := alike a (List.mem_singleton_self _)
    simp only [Split.rounded, Split.tree, rounded_eq_nil_iff, ofLetters?_rounded,
      function?_rounded bare, registered_rounded bare, operand]
    by_cases nothing : name = []
    · rw [if_pos nothing, if_pos nothing]
    rw [if_neg nothing, if_neg nothing]
    cases Kind.ofLetters? name with
    | none => rfl
    | some kind =>
      cases read a with
      | ok f => rfl
      | error fault =>
        by_cases shadowed : fault.isParse ∧ (ctx.function? name).isSome
        · simp only [Except.mapError, Fault.isParse_rounded, if_pos shadowed]
        · simp only [Except.mapError, Fault.isParse_rounded, if_neg shadowed]

/-- A text that cannot be split is not quoted. -/
theorem rounded_of_split_error {cause : ParseError} (h : split text = .error cause) :
    cause.rounded = cause := by
  unfold split at h
  split at h
  · cases h
    rfl
  · split at h
    · contradiction
    · cases h
      rfl

/-- The rounded text is read as the same tree, or fails with the rounded error. -/
theorem parse_rounded (bare : ctx.Unbracketed) (text : List Char) :
    parse ctx dim (rounded text) = roundError (parse ctx dim text) := by
  induction text using operands_induction with
  | step text ih =>
    have same := hasName_rounded bare text
    cases named : ctx.hasName text with
    | true =>
      rw [parse_named named, parse_named (same.trans named)]
      exact atom_rounded bare text
    | false =>
      have unnamed := same.trans named
      have whole := split_rounded text
      cases cut : split text with
      | error cause =>
        rw [cut] at whole
        rw [parse_error named cut, parse_error unnamed whole]
        exact congrArg (Except.error ∘ Fault.parse) (rounded_of_split_error cut).symm
      | ok parts =>
        rw [cut] at whole
        rw [parse_split named cut, parse_split unnamed whole]
        exact tree_rounded bare (ih parts cut)

end Reading

section Reshaping

variable {ctx : Context} {s t : List Char}

/-- The texts differ in the shape of brackets only. -/
inductive Reshaped : List Char → List Char → Prop where
  | nil : Reshaped [] []
  | same (c : Char) {s t} : Reshaped s t → Reshaped (c :: s) (c :: t)
  | opening {o o' : Char} {s t} : isOpening o = true → isOpening o' = true → Reshaped s t →
      Reshaped (o :: s) (o' :: t)
  | closing {c c' : Char} {s t} : isClosing c = true → isClosing c' = true → Reshaped s t →
      Reshaped (c :: s) (c' :: t)

/-- Texts that differ in the shape of brackets round to the same text. -/
theorem rounded_eq_of_reshaped (h : Reshaped s t) : rounded s = rounded t := by
  induction h with
  | nil => rfl
  | same c _ ih => rw [rounded_cons, rounded_cons, ih]
  | opening ho ho' _ ih =>
    rw [rounded_cons, rounded_cons, roundBracket_opening ho, roundBracket_opening ho', ih]
  | closing hc hc' _ ih =>
    rw [rounded_cons, rounded_cons, roundBracket_closing hc, roundBracket_closing hc', ih]

/-- Texts with the same rounded text differ in the shape of brackets only. -/
theorem reshaped_of_rounded_eq (h : rounded s = rounded t) : Reshaped s t := by
  induction s generalizing t with
  | nil =>
    obtain rfl := rounded_eq_nil_iff.1 h.symm
    exact .nil
  | cons c s ih =>
    cases t with
    | nil => contradiction
    | cons d t =>
      obtain ⟨head, tail⟩ := List.cons.inj h
      have opening := congrArg isOpening head
      have closing := congrArg isClosing head
      rw [isOpening_roundBracket, isOpening_roundBracket] at opening
      rw [isClosing_roundBracket, isClosing_roundBracket] at closing
      cases ho : isOpening c with
      | true => exact .opening ho (opening ▸ ho) (ih tail)
      | false =>
        cases hc : isClosing c with
        | true => exact .closing hc (closing ▸ hc) (ih tail)
        | false =>
          rw [roundBracket_other ho hc, roundBracket_other (opening ▸ ho) (closing ▸ hc)] at head
          subst head
          exact .same c (ih tail)

theorem isBlank_of_isOpening {c : Char} (h : isOpening c = true) : Unicode.isBlank c = false := by
  rcases isOpening_iff.1 h with rfl | rfl | rfl <;> decide

theorem isBlank_of_isClosing {c : Char} (h : isClosing c = true) : Unicode.isBlank c = false := by
  rcases isClosing_iff.1 h with rfl | rfl | rfl <;> decide

/-- Blanks are removed one by one. -/
theorem withoutBlanks_cons (c : Char) (s : List Char) :
    withoutBlanks (c :: s) =
      if Unicode.isBlank c then withoutBlanks s else c :: withoutBlanks s := by
  cases h : Unicode.isBlank c <;> simp [withoutBlanks, h]

/-- Removing the blanks keeps the brackets in their places. -/
theorem reshaped_withoutBlanks (h : Reshaped s t) :
    Reshaped (withoutBlanks s) (withoutBlanks t) := by
  induction h with
  | nil => exact .nil
  | same c _ ih =>
    rw [withoutBlanks_cons, withoutBlanks_cons]
    split
    · exact ih
    · exact .same c ih
  | opening ho ho' _ ih =>
    rw [withoutBlanks_cons, withoutBlanks_cons, isBlank_of_isOpening ho, isBlank_of_isOpening ho']
    exact .opening ho ho' ih
  | closing hc hc' _ ih =>
    rw [withoutBlanks_cons, withoutBlanks_cons, isBlank_of_isClosing hc, isBlank_of_isClosing hc']
    exact .closing hc hc' ih

/-- Errors of one class; the texts that they quote differ in the shape of brackets only. -/
inductive ParseError.Alike : ParseError → ParseError → Prop where
  | unknownToken {a b : List Char} : Reshaped a b → Alike (.unknownToken a) (.unknownToken b)
  | mismatchedBracket : Alike .mismatchedBracket .mismatchedBracket
  | emptyInput : Alike .emptyInput .emptyInput
  | dimensionMismatch {a b : List Char} : Reshaped a b →
      Alike (.dimensionMismatch a) (.dimensionMismatch b)
  | invalidInput : Alike .invalidInput .invalidInput
  | other (text : List Char) : Alike (.other text) (.other text)

/-- The same tree, or errors that are alike. -/
inductive Alike : Outcome Expr → Outcome Expr → Prop where
  | tree (f : Expr) : Alike (.ok f) (.ok f)
  | unread {cause cause' : ParseError} : cause.Alike cause' →
      Alike (.error (.parse cause)) (.error (.parse cause'))
  | fault (cause : Fault) : Alike (.error cause) (.error cause)

/-- Parsing errors that agree when they are rounded are of one class. -/
theorem alike_of_rounded_eq {cause cause' : ParseError} (h : cause.rounded = cause'.rounded) :
    cause.Alike cause' := by
  cases cause <;> cases cause' <;> simp only [ParseError.rounded, reduceCtorEq] at h
  case unknownToken.unknownToken =>
    exact .unknownToken (reshaped_of_rounded_eq (ParseError.unknownToken.inj h))
  case dimensionMismatch.dimensionMismatch =>
    exact .dimensionMismatch (reshaped_of_rounded_eq (ParseError.dimensionMismatch.inj h))
  case other.other =>
    obtain rfl := ParseError.other.inj h
    exact .other _
  all_goals constructor

/-- Faults that agree when they are rounded are alike. -/
theorem alike_of_rounded_fault {fault fault' : Fault} (h : fault.rounded = fault'.rounded) :
    Alike (.error fault) (.error fault') := by
  have same : fault.isParse = fault'.isParse := by
    rw [← fault.isParse_rounded, h, fault'.isParse_rounded]
  cases quoted : fault.isParse with
  | true =>
    obtain ⟨cause, rfl⟩ := Fault.exists_of_isParse quoted
    obtain ⟨cause', rfl⟩ := Fault.exists_of_isParse (same.symm.trans quoted)
    exact .unread (alike_of_rounded_eq (Fault.parse.inj h))
  | false =>
    rw [Fault.rounded_of_not_isParse quoted,
      Fault.rounded_of_not_isParse (same.symm.trans quoted)] at h
    subst h
    exact .fault fault

/-- Readings that agree when errors are rounded are alike. -/
theorem alike_of_roundError {x y : Outcome Expr} (h : roundError x = roundError y) :
    Alike x y := by
  cases x with
  | ok f =>
    cases y with
    | ok g =>
      obtain rfl := Except.ok.inj h
      exact .tree f
    | error fault => exact absurd h (by simp [roundError, Except.mapError])
  | error fault =>
    cases y with
    | ok g => exact absurd h (by simp [roundError, Except.mapError])
    | error fault' => exact alike_of_rounded_fault (Except.error.inj h)

/-- Texts that differ in the shape of brackets only are built alike. -/
theorem alike_of_reshaped (bare : ctx.Unbracketed) (dim : Int) (h : Reshaped s t) :
    Alike (build ctx dim s) (build ctx dim t) := by
  by_cases arity : Context.isArity dim = true
  · rw [build_eq_parse arity, build_eq_parse arity]
    refine alike_of_roundError ?_
    rw [← parse_rounded bare, ← parse_rounded bare,
      rounded_eq_of_reshaped (reshaped_withoutBlanks h)]
  · rw [build, build, if_neg arity, if_neg arity]
    exact .fault _

end Reshaping

end Fluxion
