import Fluxion.Calculator.Value

/-!
# Equality of values

Values of different kinds differ, save that a truth value counts as a number. Containers are equal
when they are of one kind and hold equal items place by place; there, what is not a number is the
same as itself, though it equals nothing.

`distinctOf` keeps the first of the values that are the same. Only what has no replaceable items
(`isSettled`) can be told from others once and for all.
-/

namespace Fluxion.Calculator
set_option autoImplicit false

namespace Value

/-- Whether two values, not both containers, are equal. -/
def samePlain (v w : Value) : Bool :=
  match v.number?, w.number? with
  | some a, some b => a.eq b
  | _, _ =>
    match v, w with
    | null, null => true
    | text a, text b => a = b
    | tree f, tree g => f = g
    | field f, field g => f = g
    | context a _, context b _ => a = b
    | _, _ => false

/-- Whether two values are one and the same that is not a number. -/
def sameMark : Value → Value → Bool
  | undefined a, undefined b => a = b
  | _, _ => false

mutual

/-- Whether two values are equal. -/
def same : Value → Value → Bool
  | polynomial a, polynomial b => allSame a b
  | vector a, vector b => allSame a b
  | matrix a r c, matrix b s d => allSame a b && same r s && same c d
  | list a, list b => allSame a b
  | tuple a, tuple b => allSame a b
  | v, w => samePlain v w

/-- Whether two lists hold the same items, place by place. -/
def allSame : List Value → List Value → Bool
  | [], [] => true
  | a :: as, b :: bs => (sameMark a b || same a b) && allSame as bs
  | _, _ => false

end

/-- Whether two items of containers are the same. -/
def sameItem (v w : Value) : Bool := sameMark v w || same v w

/-- The first of some integers that a value equals. -/
def choice? (options : List Int) (v : Value) : Option Int :=
  options.find? fun n => same v (intValue n)

mutual

/-- Whether a value has no items that can be replaced. -/
def isSettled : Value → Bool
  | vector _ | matrix _ _ _ | list _ => false
  | polynomial items | tuple items => allSettled items
  | _ => true

/-- Whether values have no items that can be replaced. -/
def allSettled : List Value → Bool
  | [] => true
  | v :: rest => isSettled v && allSettled rest

end

/-- The given values followed by those that are the same as none before them. -/
def distinctOf (kept : List Value) : List Value → List Value
  | [] => kept
  | v :: rest => distinctOf (if kept.any (sameItem v) then kept else kept ++ [v]) rest

end Value

end Fluxion.Calculator
