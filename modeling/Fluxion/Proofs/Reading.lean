import Mathlib.Tactic.NormNum
import Fluxion.Proofs.Grammar

/-!
# Phrases are read as their trees

One lemma for each way in which a text is split says what `parse` makes of it, and one for each kind
of token what `atom` makes of it. Both halves of a split may have lost a pair of brackets; so may a
phrase, and it is read as the same tree then (`parse_of_reads`).
-/

namespace Fluxion
set_option autoImplicit false
open Fluxion.Text

variable {ctx : Context} {dim : Nat} {level : Level} {s t : List Char} {f g : Expr}

section Steps

/-- What is built of a text is read of it without its blanks. -/
theorem build_eq_parse {n : Int} (arity : Context.isArity n = true) (text : List Char) :
    build ctx n text = parse ctx n.toNat (withoutBlanks text) := if_pos arity

/-- A registered name is one token, whatever characters it has. -/
theorem parse_named (named : ctx.hasName s = true) : parse ctx dim s = atom ctx dim s := by
  rw [parse, if_pos named]

/-- A registered name without blanks is built as its token. -/
theorem build_named {n : Int} (arity : Context.isArity n = true) (named : ctx.hasName s = true)
    (solid : withoutBlanks s = s) : build ctx n s = atom ctx n.toNat s := by
  rw [build_eq_parse arity, solid, parse_named named]

variable (unnamed : ctx.hasName s = false)

include unnamed

/-- A text that cannot be split is not read. -/
theorem parse_error {cause : ParseError} (hs : split s = .error cause) :
    parse ctx dim s = .error (.parse cause) := by
  rw [parse, if_neg (by simp [unnamed])]
  split <;> simp_all

/-- A text that is left whole is a token. -/
theorem parse_atom (hs : split s = .ok (.atom t)) : parse ctx dim s = atom ctx dim t := by
  rw [parse, if_neg (by simp [unnamed])]
  split <;> simp_all

theorem parse_negate {a : List Char} (hs : split s = .ok (.negate a)) :
    parse ctx dim s = (do
      let f ← parse ctx dim a
      return f.neg) := by
  rw [parse, if_neg (by simp [unnamed])]
  split <;> simp_all

/-- The left operand is read first, so its error is the one reported. -/
theorem parse_binary {op : Op} {a b : List Char} (hs : split s = .ok (.binary op a b)) :
    parse ctx dim s = (do
      let f ← parse ctx dim a
      let g ← parse ctx dim b
      return op.apply f g) := by
  rw [parse, if_neg (by simp [unnamed])]
  split <;> simp_all

/-- A call without a name is a group. -/
theorem parse_brackets {a : List Char} (hs : split s = .ok (.call [] a)) :
    parse ctx dim s = parse ctx dim a := by
  rw [parse, if_neg (by simp [unnamed])]
  split <;> simp_all

/-- The argument of any name but that of a named function is not read at all. -/
theorem parse_applied {name a : List Char} (hs : split s = .ok (.call name a))
    (nonempty : name ≠ []) (other : Kind.ofLetters? name = none) :
    parse ctx dim s = registered ctx dim name := by
  rw [parse, if_neg (by simp [unnamed])]
  split <;> simp_all

/-- A named function applies to what is read in its bracket. -/
theorem parse_call {name a : List Char} {k : Kind} (hs : split s = .ok (.call name a))
    (nonempty : name ≠ []) (kind : Kind.ofLetters? name = some k) (ha : parse ctx dim a = .ok f) :
    parse ctx dim s = .ok (.special k f) := by
  rw [parse, if_neg (by simp [unnamed])]
  split <;> simp_all

/-- A named function with an operand that cannot be read may still be a registered name. -/
theorem parse_call_error {name a : List Char} {k : Kind} {fault : Fault}
    (hs : split s = .ok (.call name a)) (nonempty : name ≠ [])
    (kind : Kind.ofLetters? name = some k) (ha : parse ctx dim a = .error fault) :
    parse ctx dim s =
      if fault.isParse ∧ (ctx.function? name).isSome then registered ctx dim name
      else .error fault := by
  rw [parse, if_neg (by simp [unnamed])]
  split <;> simp_all

end Steps

section Tokens

open Unicode

/-- A word is no literal. -/
theorem read_word (nonempty : s ≠ []) (h : ∀ c ∈ s, NameLetter c) :
    Literal.read s = .ok none := by
  have noLiteral {u : List Char} {q : Rat} (literal : IsLiteral u q) (within : ∀ c ∈ u, c ∈ s) :
      False := by
    obtain ⟨d, t, rfl, digit⟩ := literal.head
    rw [isDigit_of_isLetter (h d (within d (List.mem_cons_self ..))).letter] at digit
    contradiction
  refine Literal.read_eq_none_iff.2 ?_
  rintro q (literal | ⟨t, rfl, literal⟩)
  · exact noLiteral literal fun c hc => hc
  · exact noLiteral literal fun c hc => List.mem_append_left _ hc

/-- Only one letter alone can be a variable. -/
theorem axisVariable?_other (h : ∀ c, s = [c] → isAxisLetter c = false) :
    axisVariable? dim s = none := by
  unfold axisVariable?
  split
  · rename_i c
    have other := h c rfl
    unfold isAxisLetter at other
    split <;> simp_all
  · rfl

theorem atom_axis {a : Axis} (h : a.index < dim) :
    atom ctx dim [a.letter] = .ok (.var a.index) := by
  have found : Axis.ofLetter? a.letter = some a := by cases a <;> rfl
  simp [atom, axisVariable?, found, h]

/-- A literal is its value, unless it has too many digits. -/
theorem atom_literal {q : Rat} (literal : IsLiteral s q) :
    atom ctx dim s =
      if Literal.isReadable s then .ok (.const q) else .error .tooManyDigits := by
  have read := Literal.read_of_isLine (.inl literal)
  obtain ⟨d, t, rfl, digit⟩ := literal.head
  have ne {c : Char} (h : isDigit c = false) : d ≠ c := by
    rintro rfl
    rw [h] at digit
    contradiction
  have noAxis : axisVariable? dim (d :: t) = none := by
    refine axisVariable?_other ?_
    rintro c hc
    cases hc
    rw [← Bool.not_eq_true]
    intro axis
    rw [isDigit_of_isLetter (isLetter_of_isAxisLetter axis)] at digit
    contradiction
  have notE : d :: t ≠ ['e'] := fun same => ne (by decide) (List.cons.inj same).1
  have notPi : d :: t ≠ ['p', 'i'] := fun same => ne (by decide) (List.cons.inj same).1
  simp only [atom, noAxis, if_neg notE, if_neg notPi, read]
  cases Literal.isReadable (d :: t) <;> rfl

theorem atom_e : atom ctx dim ['e'] = .ok .e := rfl

theorem atom_pi : atom ctx dim ['p', 'i'] = .ok .pi := rfl

/-- What a registered name is not. -/
theorem atom_word (named : ctx.WellNamed) (h : ctx.hasName s = true) :
    atom ctx dim s =
      if (ctx.function? s).isSome then registered ctx dim s
      else match ctx.symbol? s with
        | some x => .ok (.const x.exact)
        | none => .error (.parse (.unknownToken s)) := by
  obtain ⟨nonempty, letters, notE, notPi, -⟩ := named s h
  have noAxis : axisVariable? dim s = none := by
    refine axisVariable?_other ?_
    rintro c rfl
    exact (letters c (List.mem_singleton_self c)).other
  unfold atom
  rw [noAxis, read_word nonempty letters]
  exact (if_neg notE).trans (if_neg notPi)

end Tokens

/-- A text with a character that stands in no name is not registered. -/
theorem hasName_eq_false (named : ctx.WellNamed) {c : Char} (hc : c ∈ s) (h : ¬NameLetter c) :
    ctx.hasName s = false := by
  rw [← Bool.not_eq_true]
  intro registered
  exact h ((named s registered).2.1 c hc)

theorem not_nameLetter {c : Char} (h : Unicode.isLetter c = false) : ¬NameLetter c := by
  intro name
  rw [name.letter] at h
  contradiction

theorem isLetter_of_isClosing {c : Char} (h : isClosing c = true) :
    Unicode.isLetter c = false := by
  rcases isClosing_iff.1 h with rfl | rfl | rfl <;> decide

/-- A text that a factor may follow has a character that stands in no name. -/
theorem not_nameLetter_last (h : AllowsFactor s) : ∃ c ∈ s, ¬NameLetter c := by
  obtain ⟨c, last, digit | axis | closing⟩ := h
  · exact ⟨c, List.mem_of_getLast? last, not_nameLetter (Unicode.isLetter_of_ascii digit)⟩
  · refine ⟨c, List.mem_of_getLast? last, fun name => ?_⟩
    rw [name.other] at axis
    contradiction
  · exact ⟨c, List.mem_of_getLast? last, not_nameLetter (isLetter_of_isClosing closing)⟩

/-- A word has no brackets around it. -/
theorem unwrap_word (h : ∀ c ∈ s, NameLetter c) : unwrap s = s := by
  cases s with
  | nil => rfl
  | cons c s =>
    exact unwrap_of_not_opening (plain_of_isLetter (h c (List.mem_cons_self ..)).letter).opening s

/-- The text is read as the tree, with its outer brackets or without them. -/
structure ReadAs (ctx : Context) (dim : Nat) (s : List Char) (f : Expr) : Prop where
  whole : parse ctx dim s = .ok f
  bare : parse ctx dim (unwrap s) = .ok f

/-- A text without outer brackets is read in one way. -/
theorem readAs_of_unwrap_eq (same : unwrap s = s) (whole : parse ctx dim s = .ok f) :
    ReadAs ctx dim s f where
  whole := whole
  bare := by rw [same, whole]

section Phrases

variable {a b : List Char} {m n : Nat} {o c : Char}

/-- Two phrases with a sign between them, neither with a cut as loose on the wrong side. -/
theorem readAs_sign (named : ctx.WellNamed) (scannedA : Scanned m a) (scannedB : Scanned n b)
    {op : Op} (left : m ≤ looseness op) (right : n < looseness op) (ha : ReadAs ctx dim a f)
    (hb : ReadAs ctx dim b g) : ReadAs ctx dim (a ++ op.sign :: b) (op.apply f g) := by
  have mem : op.sign ∈ a ++ op.sign :: b := by simp
  have unnamed := hasName_eq_false named mem (not_nameLetter (isLetter_sign op))
  refine readAs_of_unwrap_eq (unwrap_append scannedA.balanced scannedA.nonempty (by simp)) ?_
  rw [parse_binary unnamed (split_sign scannedA scannedB left right), ha.bare, hb.bare]
  rfl

/-- Two phrases side by side are a product. -/
theorem readAs_juxtaposed (named : ctx.WellNamed) (scannedA : Scanned m a)
    (scannedB : Scanned n b) (ends : AllowsFactor a)
    (starts : ∃ d t, b = d :: t ∧ startsAtom d = true) (left : m ≤ looseness .mul)
    (right : n < looseness .mul) (ha : ReadAs ctx dim a f) (hb : ReadAs ctx dim b g) :
    ReadAs ctx dim (a ++ b) (f.mul g) := by
  obtain ⟨c, hc, other⟩ := not_nameLetter_last ends
  have unnamed := hasName_eq_false named (List.mem_append_left b hc) other
  have cut := split_juxtaposed scannedA scannedB (endsOperand_of_allowsFactor ends) starts left
    right
  refine readAs_of_unwrap_eq
    (unwrap_append scannedA.balanced scannedA.nonempty scannedB.nonempty) ?_
  rw [parse_binary unnamed cut, ha.bare, hb.bare]
  rfl

/-- The sign in front negates all of a phrase that has no cut as loose. -/
theorem readAs_negated (named : ctx.WellNamed) (scanned : Scanned n s)
    (tight : n < looseness .sub) (hs : ReadAs ctx dim s f) : ReadAs ctx dim ('-' :: s) f.neg := by
  have mem : '-' ∈ '-' :: s := List.mem_cons_self ..
  have unnamed := hasName_eq_false named mem (not_nameLetter (isLetter_sign .sub))
  refine readAs_of_unwrap_eq (unwrap_of_not_opening (by decide) s) ?_
  rw [parse_negate unnamed (split_negated scanned tight), hs.bare]
  rfl

/-- A literal is one token. -/
theorem parse_literal (named : ctx.WellNamed) {q : Rat} (literal : IsLiteral s q) :
    parse ctx dim s =
      if Literal.isReadable s then .ok (.const q) else .error .tooManyDigits := by
  obtain ⟨d, t, rfl, digit⟩ := literal.head
  have mem : d ∈ d :: t := List.mem_cons_self ..
  have unnamed := hasName_eq_false named mem (not_nameLetter (Unicode.isLetter_of_isDigit digit))
  rw [parse_atom unnamed (split_token literal.scanned), atom_literal literal]

/-- A literal with few enough digits is read as its value. -/
theorem readAs_literal (named : ctx.WellNamed) {q : Rat} (literal : IsLiteral s q)
    (readable : Literal.isReadable s = true) : ReadAs ctx dim s (.const q) := by
  have whole : parse ctx dim s = .ok (.const q) := by
    rw [parse_literal named literal, if_pos readable]
  obtain ⟨d, t, rfl, digit⟩ := literal.head
  exact readAs_of_unwrap_eq (unwrap_of_not_opening (plain_of_isDigit digit).opening t) whole

/-- The letter of an axis is no name, and it is its variable. -/
theorem readAs_axis (named : ctx.WellNamed) {axis : Axis} (small : axis.index < dim) :
    ReadAs ctx dim [axis.letter] (.var axis.index) := by
  have letter : isAxisLetter axis.letter = true := by cases axis <;> rfl
  have unnamed : ctx.hasName [axis.letter] = false := by
    refine hasName_eq_false named (List.mem_cons_self ..) ?_
    intro name
    rw [name.other] at letter
    contradiction
  have plain := plain_of_isLetter (isLetter_of_isAxisLetter letter)
  refine readAs_of_unwrap_eq (unwrap_of_not_opening plain.opening []) ?_
  rw [parse_atom unnamed (split_token (scanned_variable letter)), atom_axis small]

/-- A word that is not registered is one token. -/
theorem readAs_token (unnamed : ctx.hasName s = false) (nonempty : s ≠ [])
    (letters : ∀ c ∈ s, NameLetter c) (token : atom ctx dim s = .ok f) : ReadAs ctx dim s f := by
  refine readAs_of_unwrap_eq (unwrap_word letters) ?_
  rw [parse_atom unnamed (split_token (scanned_name letters nonempty)), token]

/-- Euler's number is not registered over. -/
theorem hasName_e (named : ctx.WellNamed) : ctx.hasName ['e'] = false := by
  rw [← Bool.not_eq_true]
  intro registered
  exact (named _ registered).2.2.1 rfl

theorem hasName_pi (named : ctx.WellNamed) : ctx.hasName ['p', 'i'] = false := by
  rw [← Bool.not_eq_true]
  intro registered
  exact (named _ registered).2.2.2.1 rfl

/-- A function of few enough variables stands for its tree. -/
theorem registered_eq_ok {entry : Entry} (found : ctx.function? s = some entry)
    (arity : entry.arity ≤ dim) : registered ctx dim s = .ok entry.tree := by
  unfold registered
  rw [found]
  exact if_neg (Nat.not_lt.2 arity)

/-- A symbol that no function shadows is its value. -/
theorem readAs_symbol (named : ctx.WellNamed) {x : Symbol} (found : ctx.symbol? s = some x)
    (noFunction : ctx.function? s = none) : ReadAs ctx dim s (.const x.exact) := by
  have registered := Context.hasName_of_symbol? found
  refine readAs_of_unwrap_eq (unwrap_word (named _ registered).2.1) ?_
  rw [parse_named registered, atom_word named registered, noFunction, found]
  rfl

/-- A function without an argument is its tree. -/
theorem readAs_function (named : ctx.WellNamed) {entry : Entry}
    (found : ctx.function? s = some entry) (arity : entry.arity ≤ dim) :
    ReadAs ctx dim s entry.tree := by
  have registered := Context.hasName_of_function? found
  refine readAs_of_unwrap_eq (unwrap_word (named _ registered).2.1) ?_
  rw [parse_named registered, atom_word named registered, registered_eq_ok found arity, found]
  rfl

/-- A text with a group in it is not registered. -/
theorem hasName_group (named : ctx.WellNamed) (hc : isClosing c = true) :
    ctx.hasName (a ++ o :: (s ++ [c])) = false := by
  have mem : c ∈ a ++ o :: (s ++ [c]) := by simp
  exact hasName_eq_false named mem (not_nameLetter (isLetter_of_isClosing hc))

/-- The brackets of a group after a word are not around the whole text. -/
theorem unwrap_word_group (letters : ∀ c ∈ a, NameLetter c) (nonempty : a ≠ []) :
    unwrap (a ++ o :: (s ++ [c])) = a ++ o :: (s ++ [c]) := by
  have balanced := depthFrom_plain (fun c hc => plain_of_isLetter (letters c hc).letter) 0
  exact unwrap_append balanced nonempty (by simp)

/-- A function with an argument is its tree all the same: the argument is not read. -/
theorem readAs_applied (named : ctx.WellNamed) {entry : Entry}
    (found : ctx.function? a = some entry) (arity : entry.arity ≤ dim) (ho : isOpening o = true)
    (hc : isClosing c = true) (balanced : depthFrom 0 s = some 0) :
    ReadAs ctx dim (a ++ o :: (s ++ [c])) entry.tree := by
  obtain ⟨nonempty, letters, -, -, noKind⟩ := named _ (Context.hasName_of_function? found)
  have other : Kind.ofLetters? a = none := by
    rw [Option.eq_none_iff_forall_ne_some]
    intro k kind
    exact noKind k (Kind.letters_of_ofLetters? kind).symm
  have cut := split_call letters ho hc balanced
  rw [unwrap_word letters] at cut
  refine readAs_of_unwrap_eq (unwrap_word_group letters nonempty) ?_
  rw [parse_applied (hasName_group named hc) cut nonempty other, registered_eq_ok found arity]

/-- A named function applies to the phrase in its bracket. -/
theorem readAs_call (named : ctx.WellNamed) (k : Kind) (ho : isOpening o = true)
    (hc : isClosing c = true) (balanced : depthFrom 0 s = some 0) (hs : ReadAs ctx dim s f) :
    ReadAs ctx dim (k.letters ++ o :: (s ++ [c])) (.special k f) := by
  have letters : ∀ c ∈ k.letters, NameLetter c := fun c => nameLetter_of_kind
  have nonempty := letters_ne_nil k
  have cut := split_call letters ho hc balanced
  rw [unwrap_word letters] at cut
  refine readAs_of_unwrap_eq (unwrap_word_group letters nonempty) ?_
  exact parse_call (hasName_group named hc) cut nonempty (Kind.ofLetters?_letters k) hs.bare

/-- A bracket around a phrase changes nothing, and comes off where an operand is unwrapped. -/
theorem readAs_group (named : ctx.WellNamed) (ho : isOpening o = true) (hc : isClosing c = true)
    (balanced : depthFrom 0 s = some 0) (hs : ReadAs ctx dim s f) :
    ReadAs ctx dim (o :: (s ++ [c])) f where
  whole := by
    have unnamed : ctx.hasName (o :: (s ++ [c])) = false := hasName_group named hc (a := [])
    have noName : ∀ c ∈ ([] : List Char), NameLetter c := fun c hc => absurd hc List.not_mem_nil
    have cut := split_call noName ho hc balanced
    exact (parse_brackets unnamed cut).trans hs.bare
  bare := by rw [unwrap_brackets ho balanced, hs.whole]

end Phrases

/-- Every phrase of the grammar is read as its tree. -/
theorem parse_of_reads (named : ctx.WellNamed) (h : Reads ctx dim level s f) :
    ReadAs ctx dim s f := by
  induction h with
  | single op _ ih => exact ih
  | join op ha hb ihf ihg =>
    exact readAs_sign named (scanned_of_reads named ha) (scanned_of_reads named hb)
      op.looseness_level.le op.looseness_operandLevel ihf ihg
  | juxtaposed ha hb ends notDigit ihf ihg =>
    have starts := startsAtom_of_startsPhrase (startsPhrase_of_reads named hb (by decide)) notDigit
    exact readAs_juxtaposed named (scanned_of_reads named ha) (scanned_of_reads named hb) ends
      starts le_rfl (by decide) ihf ihg
  | negated hs ih => exact readAs_negated named (scanned_of_reads named hs) (by decide) ih
  | integer h short =>
    exact readAs_literal named (isLiteral_integer h) (isReadable_integer h short)
  | decimal h h' short =>
    exact readAs_literal named (isLiteral_decimal h h') (isReadable_decimal h h' short)
  | axis _ small => exact readAs_axis named small
  | e => exact readAs_token (hasName_e named) (by simp) nameLetters_e atom_e
  | pi => exact readAs_token (hasName_pi named) (by simp) nameLetters_pi atom_pi
  | symbol found noFunction => exact readAs_symbol named found noFunction
  | function found arity => exact readAs_function named found arity
  | applied found arity ho hc hs _ =>
    exact readAs_applied named found arity ho hc (scanned_of_reads named hs).balanced
  | call k ho hc hs ih => exact readAs_call named k ho hc (scanned_of_reads named hs).balanced ih
  | group ho hc hs ih => exact readAs_group named ho hc (scanned_of_reads named hs).balanced ih

section Build

open Unicode

theorem isBlank_of_nameLetters (h : ∀ c ∈ s, NameLetter c) : ∀ c ∈ s, isBlank c = false :=
  fun c hc => isBlank_of_isLetter (h c hc).letter

/-- A group has no blanks if what is in it has none. -/
theorem isBlank_brackets {o c : Char} (ho : isOpening o = true) (hc : isClosing c = true)
    (h : ∀ d ∈ s, isBlank d = false) : ∀ d ∈ o :: (s ++ [c]), isBlank d = false := by
  intro d hd
  rcases List.mem_cons.1 hd with rfl | hd
  · rcases isOpening_iff.1 ho with rfl | rfl | rfl <;> decide
  · rcases List.mem_append.1 hd with hd | hd
    · exact h d hd
    · obtain rfl := List.mem_singleton.1 hd
      rcases isClosing_iff.1 hc with rfl | rfl | rfl <;> decide

/-- A phrase has no blanks. -/
theorem isBlank_of_reads (named : ctx.WellNamed) (h : Reads ctx dim level s f) :
    ∀ c ∈ s, isBlank c = false := by
  have append {a b : List Char} (ha : ∀ c ∈ a, isBlank c = false)
      (hb : ∀ c ∈ b, isBlank c = false) : ∀ c ∈ a ++ b, isBlank c = false :=
    fun c hc => (List.mem_append.1 hc).elim (ha c) (hb c)
  have cons {d : Char} {b : List Char} (hd : isBlank d = false)
      (hb : ∀ c ∈ b, isBlank c = false) : ∀ c ∈ d :: b, isBlank c = false := by
    intro c hc
    rcases List.mem_cons.1 hc with rfl | hc
    · exact hd
    · exact hb c hc
  have digits {ds : List Char} (h : IsNumeral ds) : ∀ c ∈ ds, isBlank c = false :=
    fun c hc => isBlank_of_ascii (h.2 c hc)
  induction h with
  | single op _ ih => exact ih
  | join op _ _ ihf ihg => exact append ihf (cons (by cases op <;> decide) ihg)
  | juxtaposed _ _ _ _ ihf ihg => exact append ihf ihg
  | negated _ ih => exact cons (by decide) ih
  | integer h _ => exact digits h
  | decimal h h' _ => exact append (digits h) (cons (by decide) (digits h'))
  | axis a => exact cons (by cases a <;> decide) (by simp)
  | e => exact isBlank_of_nameLetters nameLetters_e
  | pi => exact isBlank_of_nameLetters nameLetters_pi
  | symbol h _ => exact isBlank_of_nameLetters (named _ (Context.hasName_of_symbol? h)).2.1
  | function h _ => exact isBlank_of_nameLetters (named _ (Context.hasName_of_function? h)).2.1
  | applied h _ ho hc _ ih =>
    exact append (isBlank_of_nameLetters (named _ (Context.hasName_of_function? h)).2.1)
      (isBlank_brackets ho hc ih)
  | call k ho hc _ ih =>
    exact append (isBlank_of_nameLetters fun c => nameLetter_of_kind) (isBlank_brackets ho hc ih)
  | group ho hc _ ih => exact isBlank_brackets ho hc ih

/-- Removing the blanks leaves a text without any as it is. -/
theorem withoutBlanks_eq_self (solid : ∀ c ∈ s, isBlank c = false) : withoutBlanks s = s := by
  refine List.filter_eq_self.2 ?_
  intro c hc
  rw [solid c hc]
  rfl

/-- A phrase is read as it stands. -/
theorem parse_phrase (named : ctx.WellNamed) (h : Reads ctx dim level s f) :
    parse ctx dim (withoutBlanks s) = .ok f := by
  rw [withoutBlanks_eq_self (isBlank_of_reads named h), (parse_of_reads named h).whole]

/-- A phrase of the grammar is built as its tree: the constructors join the operands of each level
from the left, and a sign in front negates the whole first term. -/
theorem build_phrase (named : ctx.WellNamed) {n : Int} (arity : Context.isArity n = true)
    (h : Reads ctx n.toNat .sum s f) : build ctx n s = .ok f := by
  rw [build_eq_parse arity, parse_phrase named h]

/-- A context with no name but `k` is well named. -/
theorem wellNamed_of_only_k (only : ∀ name, ctx.hasName name = true → name = ['k']) :
    ctx.WellNamed := by
  intro name registered
  obtain rfl := only name registered
  refine ⟨by simp, fun c hc => ?_, by simp, by simp, fun k => by cases k <;> simp [Kind.letters]⟩
  obtain rfl := List.mem_singleton.1 hc
  exact ⟨by decide, by decide⟩

/-- In `-2x+k` the sign negates the product only. -/
theorem build_phrase_negated_product :
    let ctx : Context := { symbols := [(['k'], ⟨2.5, 5 / 2⟩)] }
    build ctx 1 ['-', '2', 'x', '+', 'k'] =
      .ok (((Expr.const 2).mul (.var 0)).neg.add (.const (5 / 2))) := by
  intro ctx
  have named : ctx.WellNamed := by
    refine wellNamed_of_only_k fun name registered => ?_
    by_contra other
    simp [ctx, Context.hasName, Context.function?, Context.symbol?, find?, Ne.symm other]
      at registered
  have two : Reads ctx 1 .power ['2'] (.const 2) := by
    have token : Reads ctx 1 .primary ['2'] (.const (numeral ['2'])) :=
      .integer ⟨by simp, by simp⟩ (by decide)
    have value : numeral ['2'] = 2 := rfl
    rw [value, Nat.cast_ofNat] at token
    exact .single .pow token
  have variable0 : Reads ctx 1 .power ['x'] (.var 0) := .single .pow (.axis .x (by decide))
  have product : Reads ctx 1 .product ['2', 'x'] ((Expr.const 2).mul (.var 0)) :=
    .juxtaposed (.single .mul two) variable0 ⟨'2', rfl, .inl rfl⟩ (by simp)
  have k : Reads ctx 1 .product ['k'] (.const (5 / 2)) :=
    .single .mul (.single .pow (.symbol (s := ⟨2.5, 5 / 2⟩) rfl rfl))
  exact build_phrase named rfl (.join .add (.negated product) k)

theorem wellNamed_empty : Context.WellNamed {} := by
  intro name registered
  contradiction

/-- A text that is a literal is built as its value, unless it has too many digits. -/
theorem build_literal (named : ctx.WellNamed) {n : Int} (arity : Context.isArity n = true)
    {q : Rat} (literal : IsLiteral s q) :
    build ctx n s = if Literal.isReadable s then .ok (.const q) else .error .tooManyDigits := by
  have solid : withoutBlanks s = s :=
    withoutBlanks_eq_self fun c hc => literal.isBlank_eq_false hc
  rw [build_eq_parse arity, solid, parse_literal named literal]

theorem isNumeral_replicate {k : Nat} (positive : k ≠ 0) :
    IsNumeral (List.replicate k '1') := by
  refine ⟨by simpa using positive, fun d hd => ?_⟩
  obtain rfl := List.eq_of_mem_replicate hd
  rfl

/-- A literal of too many ones is a literal still, but it is not built. -/
theorem build_ones (named : ctx.WellNamed) {n : Int} (arity : Context.isArity n = true) {k : Nat}
    (long : Decimal.maxDigits < k) :
    build ctx n (List.replicate k '1') = .error .tooManyDigits := by
  have digits := isNumeral_replicate (Nat.ne_zero_of_lt long)
  have unreadable : Literal.isReadable (List.replicate k '1') = false := by
    rw [Literal.isReadable, (isRun_numeral digits).countP_eq, List.length_replicate]
    exact decide_eq_false (Nat.not_le.2 long)
  rw [build_literal named arity (isLiteral_integer digits), unreadable]
  rfl

/-- A name that is registered twice stands for the function: the symbol is not read even where the
function has too many variables. A number with more digits than an integer is read from is no
expression. -/
theorem build_shadowed_symbol :
    let tree : Expr := .binary .add (.var 0) (.var 1)
    let ctx : Context := { functions := [(['k'], ⟨tree, 2⟩)], symbols := [(['k'], ⟨2.5, 5 / 2⟩)] }
    let ones := List.replicate 4301 '1'
    ctx.WellNamed ∧
      (ctx.symbol? ['k'] = some ⟨2.5, 5 / 2⟩ ∧
        build ctx 1 ['k'] = .error (.parse (.dimensionMismatch ['k']))) ∧
      IsNumeral ones ∧ build ctx 1 ones = .error .tooManyDigits := by
  intro tree ctx ones
  have named : ctx.WellNamed := by
    refine wellNamed_of_only_k fun name registered => ?_
    by_contra other
    simp [ctx, Context.hasName, Context.function?, Context.symbol?, find?, Ne.symm other]
      at registered
  refine ⟨named, ⟨rfl, ?_⟩, isNumeral_replicate (by decide), build_ones named rfl (by decide)⟩
  rw [build_named rfl rfl (by decide)]
  rfl

/-- What is read as a number on a line of its own is a literal with few enough digits, and it is
read as the number that the literal writes; a literal with too many digits is refused, and anything
else is no number. The splitter leaves every literal whole, and it is built as its constant if it
is read. -/
theorem read_literal (s : List Char) :
    (∀ q, Literal.read s = .ok (some q) ↔
      IsLine s q ∧ s.countP Unicode.isDecimalDigit ≤ Decimal.maxDigits) ∧
    (Literal.read s = .ok none ↔ ∀ q, ¬IsLine s q) ∧
    (∀ fault, Literal.read s = .error fault ↔
      fault = .tooManyDigits ∧ Decimal.maxDigits < s.countP Unicode.isDecimalDigit ∧
        ∃ q, IsLine s q) ∧
    ∀ {q}, IsLiteral s q → split s = .ok (.atom s) ∧
      ∀ {n : Int}, Context.isArity n = true →
        build {} n s =
          if s.countP Unicode.isDecimalDigit ≤ Decimal.maxDigits then .ok (.const q)
          else .error .tooManyDigits := by
  have readable : Literal.isReadable s = true ↔
      s.countP Unicode.isDecimalDigit ≤ Decimal.maxDigits := decide_eq_true_iff
  have unreadable : Literal.isReadable s = false ↔
      Decimal.maxDigits < s.countP Unicode.isDecimalDigit := by
    rw [← Bool.not_eq_true, readable, Nat.not_le]
  refine ⟨fun q => ?_, Literal.read_eq_none_iff, fun fault => ?_,
    fun {q} literal => ⟨split_token literal.scanned, fun {n} arity => ?_⟩⟩
  · rw [Literal.read_eq_some_iff, readable]
  · rw [Literal.read_eq_error_iff, unreadable]
  · rw [build_literal wellNamed_empty arity literal]
    exact if_congr readable rfl rfl

/-- Three and a half, with digits of two scripts. -/
theorem read_literal_scripts :
    Literal.read ['３', '.', '५', '\n'] = .ok (some (7 / 2)) ∧
      split ['３', '.', '५'] = .ok (.atom ['３', '.', '५']) ∧
      build {} 1 ['３', '.', '५'] = .ok (.const (7 / 2)) := by
  have literal : IsLiteral ['３', '.', '५'] (7 / 2) := by
    have three : IsRun ['３'] [3] := ⟨by simp, by decide⟩
    have five : IsRun ['५'] [5] := ⟨by simp, by decide⟩
    have written := IsLiteral.decimal three five
    norm_num [Nat.ofDigits] at written
    exact written
  obtain ⟨-, -, -, built⟩ := read_literal ['３', '.', '५']
  obtain ⟨whole, built⟩ := built literal
  refine ⟨((read_literal _).1 _).2 ⟨.inr ⟨_, rfl, literal⟩, by decide⟩, whole, ?_⟩
  rw [built rfl, if_pos (by decide)]

/-- The digits after the point count: a literal with as many digits before it as are read at most
is refused. -/
theorem read_literal_longer :
    let s := List.replicate 4300 '1' ++ ['.', '5']
    (∃ q, IsLiteral s q) ∧ Literal.read s = .error .tooManyDigits ∧
      build {} 1 s = .error .tooManyDigits := by
  intro s
  have ones : IsNumeral (List.replicate 4300 '1') := isNumeral_replicate (by decide)
  have five : IsNumeral ['5'] := ⟨by simp, by simp⟩
  have literal : IsLiteral s _ := isLiteral_decimal ones five
  have unreadable : Literal.isReadable s = false := by
    refine decide_eq_false ?_
    rw [countP_decimal (isRun_numeral ones) (isRun_numeral five), List.length_replicate]
    decide
  refine ⟨⟨_, literal⟩, ?_, ?_⟩
  · rw [Literal.read_of_isLine (.inl literal), unreadable]
    rfl
  · rw [build_literal wellNamed_empty rfl literal, unreadable]
    rfl

end Build

end Fluxion
