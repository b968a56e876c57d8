import Fluxion.Proofs.Dimension
import Fluxion.Proofs.Mismatch
import Fluxion.Proofs.Reshaping

/-!
# Groups and calls

A pair of brackets around a matched text does not change how the text is read (`parse_enclosed`).
The halves of a split lose one pair, so this is an induction over the pairs around a text: with one
pair less it is read alike (`parse_unwrap`). With the interchangeable shapes of brackets this makes
up the laws of brackets (`build_reshaped_enclosed`).

A call of a named function reads its argument as the argument is read alone, and fails as it fails
(`build_call`), but for one thing: a function that is registered under the name stands in for a call
whose argument cannot be read (`build_call_shadowed`).
-/

namespace Fluxion
set_option autoImplicit false
open Fluxion.Text

section Enclosed

variable {ctx : Context} {dim : Nat} {s : List Char} {o c : Char}

/-- A text with a bracket is no registered name. -/
theorem hasName_bracket (bare : ctx.Unbracketed) (ho : isOpening o = true) (h : o ∈ s) :
    ctx.hasName s = false := by
  rw [← Bool.not_eq_true]
  intro named
  have none := (bare s named o h).1
  rw [ho] at none
  contradiction

/-- A text in brackets is read as the text that the brackets are taken off, with one pair more taken
off if there is one. -/
theorem parse_group (bare : ctx.Unbracketed) (ho : isOpening o = true) (hc : isClosing c = true)
    (balanced : depthFrom 0 s = some 0) :
    parse ctx dim (o :: (s ++ [c])) = parse ctx dim (unwrap s) := by
  have noName : ∀ c ∈ ([] : List Char), NameLetter c := fun c hc => absurd hc List.not_mem_nil
  exact parse_brackets (hasName_bracket bare ho (List.mem_cons_self ..))
    (split_call noName ho hc balanced)

/-- A pair of brackets around a matched text may be taken off. -/
theorem parse_unwrap (bare : ctx.Unbracketed) (s : List Char) (balanced : depthFrom 0 s = some 0) :
    parse ctx dim (unwrap s) = parse ctx dim s := by
  obtain same | ⟨o, t, c, whole, inside, ho, hc, inner⟩ := unwrap_eq_or balanced
  · rw [same]
  · have shorter : t.length < s.length := by
      rw [whole, List.length_cons, List.length_append]
      omega
    calc parse ctx dim (unwrap s)
      _ = parse ctx dim t := by rw [inside]
      _ = parse ctx dim (unwrap t) := (parse_unwrap bare t inner).symm
      _ = parse ctx dim (o :: (t ++ [c])) := (parse_group bare ho hc inner).symm
      _ = parse ctx dim s := by rw [whole]
termination_by s.length

/-- A pair of brackets may be put around a matched text. -/
theorem parse_enclosed (bare : ctx.Unbracketed) (ho : isOpening o = true) (hc : isClosing c = true)
    (balanced : depthFrom 0 s = some 0) :
    parse ctx dim (o :: (s ++ [c])) = parse ctx dim s :=
  (parse_group bare ho hc balanced).trans (parse_unwrap bare s balanced)

end Enclosed

section Blanks

variable {a s : List Char} {o c : Char}

/-- Blanks do not count for the depth. -/
theorem depthFrom_withoutBlanks (d : Nat) (s : List Char) :
    depthFrom d (withoutBlanks s) = depthFrom d s := by
  induction s generalizing d with
  | nil => rfl
  | cons c s ih =>
    rw [withoutBlanks_cons]
    split
    · rename_i blank
      have opening : isOpening c = false := by
        rw [← Bool.not_eq_true]
        intro opening
        rw [isBlank_of_isOpening opening] at blank
        contradiction
      have closing : isClosing c = false := by
        rw [← Bool.not_eq_true]
        intro closing
        rw [isBlank_of_isClosing closing] at blank
        contradiction
      rw [depthFrom_other opening closing, ih]
    · simp only [depthFrom, ih]

theorem depthFrom_of_matched (matched : ¬Mismatched s) :
    depthFrom 0 (withoutBlanks s) = some 0 := by
  rw [depthFrom_withoutBlanks]
  exact not_not.1 fun unbalanced => matched (mismatched_iff.2 unbalanced)

theorem not_mismatched_word (letters : ∀ c ∈ a, NameLetter c) : ¬Mismatched a := by
  rw [mismatched_iff, not_not]
  exact depthFrom_plain (fun c hc => plain_of_isLetter (letters c hc).letter) 0

theorem withoutBlanks_word (letters : ∀ c ∈ a, NameLetter c) : withoutBlanks a = a :=
  withoutBlanks_eq_self (isBlank_of_nameLetters letters)

/-- Blanks are removed inside the bracket only, as a name has none. -/
theorem withoutBlanks_call (letters : ∀ c ∈ a, NameLetter c) (ho : isOpening o = true)
    (hc : isClosing c = true) (s : List Char) :
    withoutBlanks (a ++ o :: (s ++ [c])) = a ++ o :: (withoutBlanks s ++ [c]) := by
  have last : withoutBlanks [c] = [c] := by
    rw [withoutBlanks_cons, isBlank_of_isClosing hc]
    rfl
  calc withoutBlanks (a ++ o :: (s ++ [c]))
    _ = withoutBlanks a ++ withoutBlanks (o :: (s ++ [c])) := List.filter_append ..
    _ = a ++ o :: withoutBlanks (s ++ [c]) := by
      rw [withoutBlanks_word letters, withoutBlanks_cons, isBlank_of_isOpening ho]
      rfl
    _ = a ++ o :: (withoutBlanks s ++ [c]) := by
      rw [withoutBlanks, List.filter_append]
      exact congrArg (fun t => a ++ o :: (withoutBlanks s ++ t)) last

end Blanks

section Laws

variable {ctx : Context} {s : List Char}

/-- A bracket around a text without an unmatched one changes nothing. -/
theorem build_enclosed (bare : ctx.Unbracketed) (dim : Int) (matched : ¬Mismatched s) {o c : Char}
    (ho : isOpening o = true) (hc : isClosing c = true) :
    build ctx dim (o :: (s ++ [c])) = build ctx dim s := by
  have noName : ∀ c ∈ ([] : List Char), NameLetter c := fun c hc => absurd hc List.not_mem_nil
  have blanks := withoutBlanks_call noName ho hc s
  rw [List.nil_append, List.nil_append] at blanks
  rw [build, build, blanks, parse_enclosed bare ho hc (depthFrom_of_matched matched)]

/-- The laws of brackets, where no registered name holds one: the shapes of brackets are
interchangeable, and a pair of brackets around a matched text changes nothing. -/
theorem build_reshaped_enclosed (bare : ctx.Unbracketed) (dim : Int) (s : List Char) :
    (∀ t, Reshaped s t → Alike (build ctx dim s) (build ctx dim t)) ∧
      (¬Mismatched s → ∀ o c, isOpening o = true → isClosing c = true →
        build ctx dim (o :: (s ++ [c])) = build ctx dim s) := by
  constructor
  · intro t reshaped
    exact alike_of_reshaped bare dim reshaped
  · intro matched o c ho hc
    exact build_enclosed bare dim matched ho hc

/-- A product with a group is built as the same tree in whatever brackets it stands; a group with a
figure behind it is reported in all of them. -/
theorem build_reshaped_enclosed_product :
    let tree : Expr := (Expr.var 0).mul (.var 0)
    (Reshaped ['(', 'x', ')', 'x'] ['{', 'x', ']', 'x'] ∧ ¬Mismatched ['(', 'x', ')', 'x'] ∧
      build {} 1 ['(', 'x', ')', 'x'] = .ok tree ∧ build {} 1 ['{', 'x', ']', 'x'] = .ok tree ∧
      build {} 1 ['[', '(', 'x', ')', 'x', '}'] = .ok tree) ∧
    Reshaped ['(', 'x', ')', '2'] ['{', 'x', ']', '2'] ∧ ¬Mismatched ['(', 'x', ')', '2'] ∧
      build {} 1 ['(', 'x', ')', '2'] = .error (.parse .mismatchedBracket) ∧
      build {} 1 ['{', 'x', ']', '2'] = .error (.parse .mismatchedBracket) ∧
      build {} 1 ['[', '(', 'x', ')', '2', '}'] = .error (.parse .mismatchedBracket) := by
  intro tree
  have reshaped (d : Char) : Reshaped ['(', 'x', ')', d] ['{', 'x', ']', d] :=
    .opening rfl rfl (.same 'x' (.closing rfl rfl (.same d .nil)))
  have arity : Context.isArity 1 = true := rfl
  have laws (d : Char) := build_reshaped_enclosed unbracketed_empty 1 ['(', 'x', ')', d]
  refine ⟨?_, ?_⟩
  · have x : Reads {} 1 .power ['x'] (.var 0) := .single .pow (.axis .x (by decide))
    have group : Reads {} 1 .product (['('] ++ ['x', ')']) (.var 0) :=
      .single .mul (.single .pow (.group rfl rfl (.single .add (.single .mul x))))
    have phrase : Reads {} 1 .sum (['(', 'x', ')'] ++ ['x']) tree :=
      .single .add (.juxtaposed group x ⟨')', rfl, by decide⟩ (by simp))
    have built : build {} 1 ['(', 'x', ')', 'x'] = .ok tree := by
      rw [build_eq_parse arity, Int.toNat_one]
      exact parse_phrase wellNamed_empty phrase
    have matched : ¬Mismatched ['(', 'x', ')', 'x'] := by
      rw [mismatched_iff, not_not]
      decide
    obtain ⟨alike, enclosed⟩ := laws 'x'
    have alike := alike _ (reshaped 'x')
    rw [built] at alike
    refine ⟨reshaped 'x', matched, built, ?_, (enclosed matched '[' '}' rfl rfl).trans built⟩
    generalize build {} 1 ['{', 'x', ']', 'x'] = other at alike
    cases alike
    rfl
  · have failed : build {} 1 ['(', 'x', ')', '2'] = .error (.parse .mismatchedBracket) := by
      rw [build_eq_parse arity]
      exact @parse_trailed_group 1 ['x'] '(' ')' '2' rfl rfl (.inl rfl) rfl
    have matched : ¬Mismatched ['(', 'x', ')', '2'] := by
      rw [mismatched_iff, not_not]
      decide
    obtain ⟨alike, enclosed⟩ := laws '2'
    have alike := alike _ (reshaped '2')
    rw [failed] at alike
    refine ⟨reshaped '2', matched, failed, ?_, (enclosed matched '[' '}' rfl rfl).trans failed⟩
    generalize build {} 1 ['{', 'x', ']', '2'] = other at alike
    cases alike with
    | unread same =>
      cases same
      rfl
    | fault => rfl

end Laws

section Calls

variable {ctx : Context} {dim : Nat} {a s : List Char} {o c : Char}

/-- A call of a named function splits into the name and the argument. -/
theorem split_kind (k : Kind) (ho : isOpening o = true) (hc : isClosing c = true)
    (balanced : depthFrom 0 a = some 0) :
    split (k.letters ++ o :: (a ++ [c])) = .ok (.call k.letters (unwrap a)) := by
  have letters : ∀ c ∈ k.letters, NameLetter c := fun c => nameLetter_of_kind
  rw [split_call letters ho hc balanced, unwrap_word letters]

/-- A named function applies to what is read in its bracket. -/
theorem parse_kind (bare : ctx.Unbracketed) (k : Kind) (ho : isOpening o = true)
    (hc : isClosing c = true) (balanced : depthFrom 0 a = some 0) {f : Expr}
    (ha : parse ctx dim a = .ok f) :
    parse ctx dim (k.letters ++ o :: (a ++ [c])) = .ok (.special k f) := by
  have bracket : o ∈ k.letters ++ o :: (a ++ [c]) := by simp
  refine parse_call (hasName_bracket bare ho bracket) (split_kind k ho hc balanced)
    (letters_ne_nil k) (Kind.ofLetters?_letters k) ?_
  rw [parse_unwrap bare a balanced, ha]

/-- A parsing error in the bracket is the error of the call, unless a function is registered under
its name. -/
theorem parse_kind_error (bare : ctx.Unbracketed) (k : Kind) (ho : isOpening o = true)
    (hc : isClosing c = true) (balanced : depthFrom 0 a = some 0) {fault : Fault}
    (ha : parse ctx dim a = .error fault) :
    parse ctx dim (k.letters ++ o :: (a ++ [c])) =
      if fault.isParse ∧ (ctx.function? k.letters).isSome then registered ctx dim k.letters
      else .error fault := by
  have bracket : o ∈ k.letters ++ o :: (a ++ [c]) := by simp
  refine parse_call_error (hasName_bracket bare ho bracket) (split_kind k ho hc balanced)
    (letters_ne_nil k) (Kind.ofLetters?_letters k) ?_
  rw [parse_unwrap bare a balanced, ha]

/-- What makes building fail: a number of axes that is none, or what makes reading fail. -/
theorem build_eq_error {n : Int} {fault : Fault} (h : build ctx n s = .error fault) :
    (¬Context.isArity n = true ∧ fault = .badCount (Fault.integerText n)) ∨
      (Context.isArity n = true ∧ parse ctx n.toNat (withoutBlanks s) = .error fault) := by
  unfold build at h
  split at h
  · rename_i arity
    exact .inr ⟨arity, h⟩
  · rename_i arity
    cases h
    exact .inl ⟨arity, rfl⟩

/-- A function that is registered under the name of a named function stands in for a call whose
argument cannot be read. -/
theorem build_kind_registered (bare : ctx.Unbracketed) {n : Int} (k : Kind)
    (ho : isOpening o = true) (hc : isClosing c = true) (matched : ¬Mismatched a)
    {cause : ParseError} (failed : build ctx n a = .error (.parse cause)) {entry : Entry}
    (found : ctx.function? k.letters = some entry) :
    build ctx n (k.letters ++ o :: (a ++ [c])) =
      if n.toNat < entry.arity then .error (.parse (.dimensionMismatch k.letters))
      else .ok entry.tree := by
  obtain ⟨-, other⟩ | ⟨arity, read⟩ := build_eq_error failed
  · contradiction
  · rw [build_eq_parse arity, withoutBlanks_call (fun c => nameLetter_of_kind) ho hc,
      parse_kind_error bare k ho hc (depthFrom_of_matched matched) read, found, registered, found]
    exact if_pos ⟨rfl, rfl⟩

/-- A call of a named function is built from its argument, and fails as its argument fails; but a
function that is registered under the name stands in for a call whose argument cannot be read. -/
theorem build_call (bare : ctx.Unbracketed) (dim : Int) (k : Kind) (ho : isOpening o = true)
    (hc : isClosing c = true) (matched : ¬Mismatched a) :
    (∀ f, build ctx dim a = .ok f →
        build ctx dim (k.letters ++ o :: (a ++ [c])) = .ok (.special k f)) ∧
      (∀ fault, build ctx dim a = .error fault →
        (ctx.function? k.letters = none ∨ ∀ cause, fault ≠ .parse cause) →
        build ctx dim (k.letters ++ o :: (a ++ [c])) = .error fault) ∧
      ∀ cause entry, build ctx dim a = .error (.parse cause) →
        ctx.function? k.letters = some entry →
        build ctx dim (k.letters ++ o :: (a ++ [c])) =
          if dim.toNat < entry.arity then .error (.parse (.dimensionMismatch k.letters))
          else .ok entry.tree := by
  have balanced := depthFrom_of_matched matched
  have blanks := withoutBlanks_call (fun c => nameLetter_of_kind (k := k)) ho hc a
  refine ⟨fun f built => ?_, fun fault failed kept => ?_, fun cause entry failed found => ?_⟩
  · obtain ⟨arity, read⟩ := build_eq_ok built
    rw [build_eq_parse arity, blanks, parse_kind bare k ho hc balanced read]
  · obtain ⟨arity, rfl⟩ | ⟨arity, read⟩ := build_eq_error failed
    · rw [build, if_neg arity]
    · have unshadowed : ¬(fault.isParse ∧ (ctx.function? k.letters).isSome) := by
        rintro ⟨parsed, found⟩
        obtain absent | other := kept
        · rw [absent] at found
          contradiction
        · obtain ⟨cause, same⟩ := Fault.exists_of_isParse parsed
          exact other cause same
      rw [build_eq_parse arity, blanks, parse_kind_error bare k ho hc balanced read,
        if_neg unshadowed]
  · exact build_kind_registered bare k ho hc matched failed found

/-- The name of a named function is nothing without an argument. -/
theorem build_letters {n : Int} (arity : Context.isArity n = true) (k : Kind)
    (unnamed : ctx.hasName k.letters = false) :
    build ctx n k.letters = .error (.parse (.unknownToken k.letters)) := by
  have letters : ∀ c ∈ k.letters, NameLetter c := fun c => nameLetter_of_kind
  have nonempty := letters_ne_nil k
  have noAxis : axisVariable? n.toNat k.letters = none :=
    axisVariable?_other fun c same => (letters c (by simp [same])).other
  have notE : k.letters ≠ ['e'] := by cases k <;> decide
  have notPi : k.letters ≠ ['p', 'i'] := by cases k <;> decide
  obtain ⟨noFunction, noSymbol⟩ := Context.hasName_eq_false_iff.1 unnamed
  rw [build_eq_parse arity, withoutBlanks_word letters, parse_atom unnamed
    (split_token (scanned_name letters nonempty)), atom, noAxis, read_word nonempty letters,
    noFunction, noSymbol]
  exact (if_neg notE).trans (if_neg notPi)

/-- The context in which the name of the sine is registered for the first variable. -/
def sineShadowed : Context := { functions := [(Kind.sin.letters, ⟨.var 0, 1⟩)] }

theorem session_sineShadowed :
    Context.session [.function Kind.sin.letters ['x'] 1] = .ok sineShadowed := by
  have x : Reads {} (1 : Int).toNat .sum ['x'] (.var 0) :=
    .single .add (.single .mul (.single .pow (.axis .x (by decide))))
  have built : build {} 1 ['x'] = .ok (.var 0) := by
    have arity : Context.isArity 1 = true := rfl
    rw [build_eq_parse arity, parse_phrase wellNamed_empty x]
  simp only [Context.session, List.foldlM_cons, Registration.run, built]
  rfl

theorem unbracketed_sineShadowed : sineShadowed.Unbracketed := by
  refine unbracketed_session unbracketed_empty ?_ session_sineShadowed
  intro step member
  obtain rfl := List.mem_singleton.1 member
  exact noBracket_letters .sin

theorem not_mismatched_letters (k : Kind) : ¬Mismatched k.letters :=
  not_mismatched_word fun _ => nameLetter_of_kind

/-- With a function registered under the name of the sine, the sine of `ln`, which is a function
without its argument, is that function; the cosine of it fails as it fails. -/
theorem build_call_ln :
    sineShadowed.Unbracketed ∧ ¬Mismatched ['l', 'n'] ∧
      build sineShadowed 1 ['c', 'o', 's', '(', 'l', 'n', ')'] =
        .error (.parse (.unknownToken ['l', 'n'])) ∧
      build sineShadowed 1 ['s', 'i', 'n', '(', 'l', 'n', ')'] = .ok (.var 0) := by
  have bare := unbracketed_sineShadowed
  have matched := not_mismatched_letters .ln
  have failed : build sineShadowed 1 Kind.ln.letters = .error (.parse (.unknownToken _)) :=
    build_letters rfl .ln rfl
  obtain ⟨-, fails, -⟩ := @build_call _ ['l', 'n'] '(' ')' bare 1 .cos rfl rfl matched
  obtain ⟨-, -, stands⟩ := @build_call _ ['l', 'n'] '(' ')' bare 1 .sin rfl rfl matched
  exact ⟨bare, matched, fails _ failed (.inl rfl), stands _ ⟨.var 0, 1⟩ failed rfl⟩

/-- The error of an argument does not always reach the caller. -/
theorem build_call_shadowed :
    Context.session [.function Kind.sin.letters ['x'] 1] = .ok sineShadowed ∧
      sineShadowed.Unbracketed ∧ ¬Mismatched ['l', 'n'] ∧
      build sineShadowed 1 ['l', 'n'] = .error (.parse (.unknownToken ['l', 'n'])) ∧
      build sineShadowed 1 ['s', 'i', 'n', '(', 'l', 'n', ')'] = .ok (.var 0) := by
  have bare := unbracketed_sineShadowed
  have matched := not_mismatched_letters .ln
  have failed : build sineShadowed 1 Kind.ln.letters = .error (.parse (.unknownToken _)) :=
    build_letters rfl .ln rfl
  have found : sineShadowed.function? Kind.sin.letters = some ⟨.var 0, 1⟩ := rfl
  exact ⟨session_sineShadowed, bare, matched, failed,
    @build_kind_registered _ ['l', 'n'] '(' ')' bare 1 .sin rfl rfl matched _ failed _ found⟩

end Calls

end Fluxion
