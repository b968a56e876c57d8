import Mathlib.Data.Rat.Cast.Defs
import Mathlib.Algebra.Field.Rat
import Fluxion.Parse
import Fluxion.Proofs.Literals
import Fluxion.Proofs.Splitting

/-!
# The grammar of expressions

The grammar that the splitting reader stands for, with the tree of every phrase: operations of one
level join from the left, a product may be written without a sign, a sign in front negates the
whole first term of a sum, and any closing bracket closes any opening one. A number has at most
`Decimal.maxDigits` digits. A phrase is a run of characters; the grammar knows no tokens.

Every phrase of the grammar is read as its tree (`parse_of_reads`). By induction on the phrase, a
scan of it meets no cut looser than the level allows (`scanned_of_reads`), so that the reader splits
it where the grammar joins it, and the halves are phrases again.
-/

namespace Fluxion
set_option autoImplicit false
open Fluxion.Text

/-- The levels of the grammar, the loosest first. -/
inductive Level where
  | sum | product | power | primary
  deriving DecidableEq, Repr

/-- The level of the phrases that an operation makes, and of its left operand. -/
def Op.level : Op → Level
  | .add | .sub => .sum
  | .mul | .div => .product
  | .pow => .power

/-- The level of the right operand of an operation. -/
def Op.operandLevel : Op → Level
  | .add | .sub => .product
  | .mul | .div => .power
  | .pow => .primary

/-- The number that ASCII digits write. -/
def numeral (ds : List Char) : Nat := Decimal.ofValues (ds.map fun d => d.toNat - 48)

/-- A run of ASCII digits. -/
def IsNumeral (ds : List Char) : Prop := ds ≠ [] ∧ ∀ d ∈ ds, d.isDigit = true

/-- Whether a product without a sign may follow: the text ends in a digit, a variable or a closing
bracket. -/
def AllowsFactor (text : List Char) : Prop :=
  ∃ c, text.getLast? = some c ∧ (c.isDigit = true ∨ isAxisLetter c = true ∨ isClosing c = true)

/-- `Reads ctx dim level text f`: the text is a phrase of the level, and its tree is `f`. -/
inductive Reads (ctx : Context) (dim : Nat) : Level → List Char → Expr → Prop where
  | single (op : Op) {s f} : Reads ctx dim op.operandLevel s f → Reads ctx dim op.level s f
  | join (op : Op) {a b f g} : Reads ctx dim op.level a f → Reads ctx dim op.operandLevel b g →
      Reads ctx dim op.level (a ++ op.sign :: b) (op.apply f g)
  | juxtaposed {a b f g} : Reads ctx dim .product a f → Reads ctx dim .power b g →
      AllowsFactor a → (∀ d, b.head? = some d → d.isDigit = false) →
      Reads ctx dim .product (a ++ b) (f.mul g)
  | negated {s f} : Reads ctx dim .product s f → Reads ctx dim .sum ('-' :: s) f.neg
  | integer {ds} : IsNumeral ds → ds.length ≤ Decimal.maxDigits →
      Reads ctx dim .primary ds (.const (numeral ds))
  | decimal {ds es} : IsNumeral ds → IsNumeral es → ds.length + es.length ≤ Decimal.maxDigits →
      Reads ctx dim .primary (ds ++ '.' :: es) (.const (numeral (ds ++ es) / 10 ^ es.length))
  | axis (a : Axis) : a.index < dim → Reads ctx dim .primary [a.letter] (.var a.index)
  | e : Reads ctx dim .primary ['e'] .e
  | pi : Reads ctx dim .primary ['p', 'i'] .pi
  | symbol {name s} : ctx.symbol? name = some s → ctx.function? name = none →
      Reads ctx dim .primary name (.const s.exact)
  | function {name entry} : ctx.function? name = some entry → entry.arity ≤ dim →
      Reads ctx dim .primary name entry.tree
  | applied {name entry o c s f} : ctx.function? name = some entry → entry.arity ≤ dim →
      isOpening o = true → isClosing c = true → Reads ctx dim .sum s f →
      Reads ctx dim .primary (name ++ o :: (s ++ [c])) entry.tree
  | call (k : Kind) {o c s f} : isOpening o = true → isClosing c = true → Reads ctx dim .sum s f →
      Reads ctx dim .primary (k.letters ++ o :: (s ++ [c])) (.special k f)
  | group {o c s f} : isOpening o = true → isClosing c = true → Reads ctx dim .sum s f →
      Reads ctx dim .primary (o :: (s ++ [c])) f

/-- The registered names are words that mean nothing else. -/
def Context.WellNamed (ctx : Context) : Prop :=
  ∀ name, ctx.hasName name = true → name ≠ [] ∧ (∀ c ∈ name, NameLetter c) ∧
    name ≠ ['e'] ∧ name ≠ ['p', 'i'] ∧ ∀ k : Kind, name ≠ k.letters

theorem Context.hasName_of_function? {ctx : Context} {name : List Char} {entry : Entry}
    (h : ctx.function? name = some entry) : ctx.hasName name = true := by
  simp [hasName, h]

theorem Context.hasName_of_symbol? {ctx : Context} {name : List Char} {s : Symbol}
    (h : ctx.symbol? name = some s) : ctx.hasName name = true := by
  simp [hasName, h]

variable {ctx : Context} {dim : Nat} {level : Level} {s : List Char} {f : Expr}

section Shape

/-- How loosely the operations of a level bind. -/
def Level.looseness : Level → Nat
  | .sum => 4
  | .product => 3
  | .power => 2
  | .primary => 1

/-- The level of the grammar at which an operation is made is as loose as its cut. -/
theorem Op.looseness_level (op : Op) : op.level.looseness = Text.looseness op := by
  cases op <;> rfl

theorem Op.looseness_operandLevel (op : Op) :
    op.operandLevel.looseness < Text.looseness op := by
  cases op <;> decide

theorem endsOperand_of_allowsFactor (h : AllowsFactor s) : endsOperand s = true := by
  obtain ⟨c, last, digit | letter | closing⟩ := h
  · simp [endsOperand, last, Unicode.isDigit_of_ascii digit]
  · simp [endsOperand, last, letter]
  · simp [endsOperand, last, closing]

/-- How a phrase starts. -/
def StartsPhrase (s : List Char) : Prop :=
  ∃ d t, s = d :: t ∧ (d.isDigit = true ∨ Unicode.isLetter d = true ∨ isOpening d = true)

/-- How a phrase starts does not depend on what follows. -/
theorem StartsPhrase.append {a : List Char} (h : StartsPhrase a) (b : List Char) :
    StartsPhrase (a ++ b) := by
  obtain ⟨d, t, rfl, kind⟩ := h
  exact ⟨d, t ++ b, rfl, kind⟩

theorem startsPhrase_of_name (nonempty : s ≠ []) (h : ∀ c ∈ s, NameLetter c) :
    StartsPhrase s := by
  obtain ⟨d, t, rfl⟩ := List.exists_cons_of_ne_nil nonempty
  exact ⟨d, t, rfl, .inr (.inl (h d (List.mem_cons_self ..)).letter)⟩

theorem startsPhrase_of_numeral (h : IsNumeral s) : StartsPhrase s := by
  obtain ⟨d, t, rfl⟩ := List.exists_cons_of_ne_nil h.1
  exact ⟨d, t, rfl, .inl (h.2 d (List.mem_cons_self ..))⟩

theorem isRun_numeral (h : IsNumeral s) : IsRun s (s.map fun d => d.toNat - 48) where
  nonempty := h.1
  values_eq := by
    rw [List.map_map]
    exact List.map_congr_left fun c hc => Unicode.decimalValue?_of_isDigit (h.2 c hc)

/-- A numeral is the literal of an integer. -/
theorem isLiteral_integer (h : IsNumeral s) : IsLiteral s (numeral s) := by
  rw [numeral, Literal.ofValues_eq]
  exact .whole (isRun_numeral h)

/-- Two numerals with a point between them are the literal of a decimal fraction. -/
theorem isLiteral_decimal {t : List Char} (h : IsNumeral s) (h' : IsNumeral t) :
    IsLiteral (s ++ '.' :: t) (numeral (s ++ t) / 10 ^ t.length) := by
  rw [numeral, List.map_append, Literal.ofValues_eq]
  exact .decimal (isRun_numeral h) (isRun_numeral h')

theorem isReadable_integer (h : IsNumeral s) (short : s.length ≤ Decimal.maxDigits) :
    Literal.isReadable s = true := by
  rw [Literal.isReadable, (isRun_numeral h).countP_eq]
  exact decide_eq_true short

/-- The digits on both sides of the point count. -/
theorem isReadable_decimal {t : List Char} (h : IsNumeral s) (h' : IsNumeral t)
    (short : s.length + t.length ≤ Decimal.maxDigits) :
    Literal.isReadable (s ++ '.' :: t) = true := by
  rw [Literal.isReadable, countP_decimal (isRun_numeral h) (isRun_numeral h')]
  exact decide_eq_true short

theorem letters_ne_nil (k : Kind) : k.letters ≠ [] := by
  cases k <;> simp [Kind.letters]

theorem nameLetters_e : ∀ c ∈ ['e'], NameLetter c := by
  intro c hc
  obtain rfl := List.mem_singleton.1 hc
  exact ⟨by decide, by decide⟩

theorem nameLetters_pi : ∀ c ∈ ['p', 'i'], NameLetter c := by
  intro c hc
  rcases List.mem_cons.1 hc with rfl | hc
  · exact ⟨by decide, by decide⟩
  · obtain rfl := List.mem_singleton.1 hc
    exact ⟨by decide, by decide⟩

/-- Only a sum may start with a sign. -/
theorem startsPhrase_of_reads (named : ctx.WellNamed) (h : Reads ctx dim level s f)
    (hl : level ≠ .sum) : StartsPhrase s := by
  induction h with
  | single op _ ih => exact ih (by cases op <;> decide)
  | join op _ _ ih _ => exact (ih hl).append _
  | juxtaposed _ _ _ _ ih _ => exact (ih hl).append _
  | negated => contradiction
  | integer h _ => exact startsPhrase_of_numeral h
  | decimal h _ _ => exact (startsPhrase_of_numeral h).append _
  | axis a => exact ⟨_, _, rfl, .inr (.inl (by cases a <;> decide))⟩
  | e => exact startsPhrase_of_name (by simp) nameLetters_e
  | pi => exact startsPhrase_of_name (by simp) nameLetters_pi
  | symbol h _ =>
    obtain ⟨nonempty, letters, -⟩ := named _ (Context.hasName_of_symbol? h)
    exact startsPhrase_of_name nonempty letters
  | function h _ =>
    obtain ⟨nonempty, letters, -⟩ := named _ (Context.hasName_of_function? h)
    exact startsPhrase_of_name nonempty letters
  | applied h =>
    obtain ⟨nonempty, letters, -⟩ := named _ (Context.hasName_of_function? h)
    exact (startsPhrase_of_name nonempty letters).append _
  | call k =>
    exact (startsPhrase_of_name (letters_ne_nil k) fun c hc => nameLetter_of_kind hc).append _
  | group ho => exact ⟨_, _, rfl, .inr (.inr ho)⟩

/-- A phrase that starts with no digit starts an atom. -/
theorem startsAtom_of_startsPhrase (h : StartsPhrase s)
    (notDigit : ∀ d, s.head? = some d → d.isDigit = false) :
    ∃ d t, s = d :: t ∧ startsAtom d = true := by
  obtain ⟨d, t, rfl, digit | letter | opening⟩ := h
  · rw [notDigit d rfl] at digit
    contradiction
  · refine ⟨d, t, rfl, ?_⟩
    have point : d ≠ '.' := by
      rintro rfl
      revert letter
      decide
    simp [startsAtom, Unicode.isDigit_of_isLetter letter, point, isSign,
      (plain_of_isLetter letter).sign]
  · refine ⟨d, t, rfl, ?_⟩
    rcases isOpening_iff.1 opening with rfl | rfl | rfl <;> decide

/-- A scan of a phrase meets no cut looser than its level. -/
theorem scanned_of_reads (named : ctx.WellNamed) (h : Reads ctx dim level s f) :
    Scanned level.looseness s := by
  induction h with
  | single op _ ih =>
    rw [op.looseness_level]
    exact ih.mono op.looseness_operandLevel.le
  | join op _ _ ihf ihg =>
    rw [op.looseness_level] at ihf ⊢
    exact ihf.sign (ihg.mono op.looseness_operandLevel.le) le_rfl
  -- The cut between the factors is one only if the first ends an operand and the second starts
  -- one.
  | juxtaposed _ hg ends notDigit ihf ihg =>
    have starts := startsAtom_of_startsPhrase
      (startsPhrase_of_reads named hg (by decide)) notDigit
    exact ihf.juxtaposed (ihg.mono (by decide)) (endsOperand_of_allowsFactor ends) starts le_rfl
  | negated _ ih => exact (ih.mono (by decide)).negated le_rfl
  | integer h _ => exact (isLiteral_integer h).scanned.mono (by decide)
  | decimal h h' _ => exact (isLiteral_decimal h h').scanned.mono (by decide)
  | axis a => exact (scanned_variable (by cases a <;> rfl)).mono (by decide)
  | e => exact (scanned_name nameLetters_e (by simp)).mono (by decide)
  | pi => exact (scanned_name nameLetters_pi (by simp)).mono (by decide)
  | symbol h _ =>
    obtain ⟨nonempty, letters, -⟩ := named _ (Context.hasName_of_symbol? h)
    exact (scanned_name letters nonempty).mono (by decide)
  | function h _ =>
    obtain ⟨nonempty, letters, -⟩ := named _ (Context.hasName_of_function? h)
    exact (scanned_name letters nonempty).mono (by decide)
  | applied h _ ho hc _ ih =>
    obtain ⟨-, letters, -⟩ := named _ (Context.hasName_of_function? h)
    exact scanned_call letters ho hc ih.balanced
  | call k ho hc _ ih => exact scanned_call (fun c => nameLetter_of_kind) ho hc ih.balanced
  | group ho hc _ ih =>
    exact scanned_call (fun c hc => absurd hc List.not_mem_nil) ho hc ih.balanced

end Shape

end Fluxion
