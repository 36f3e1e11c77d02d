import RecordWalk.Value.Convert

/-!
# Strict and loose equality

Strict equality compares values of one kind; records and functions compare by identity. Loose
equality first converts: undefined and null equal each other and nothing else, booleans become
numbers, a record or function that meets anything else becomes its display text, and a number that
meets a text is compared with the number the text reads as.

Each conversion leads to a kind that needs fewer of them, so loose equality ends.
-/

namespace RecordWalk.Value

def strictEq : Value → Value → Bool
  | undefined, undefined => true
  | null, null => true
  | bool a, bool b => a == b
  | number x, number y => x.eq y
  | text s, text t => s == t
  | record r, record s => r.same s
  | function f, function g => f.id == g.id
  | _, _ => false

/-- The number of conversions that a value may go through in a comparison. -/
def conversions : Value → Nat
  | bool _ => 1
  | record _ => 1
  | function _ => 1
  | _ => 0

theorem conversions_toPrimitive_lt {v : Value} (h : v.isObject = true) :
    v.toPrimitive.conversions < v.conversions := by
  cases v <;> simp_all [isObject, toPrimitive, conversions]

def looseEq (a b : Value) : Bool :=
  match a, b with
  | undefined, b => b.isNullish
  | null, b => b.isNullish
  | _, undefined => false
  | _, null => false
  | number x, text s => x.eq (.read s)
  | text s, number y => Double.eq (.read s) y
  | bool p, b => looseEq (number (.ofBool p)) b
  | a, bool q => looseEq a (number (.ofBool q))
  | a, b =>
    if _ha : a.isObject then
      if b.isObject then strictEq a b else looseEq a.toPrimitive b
    else
      if _hb : b.isObject then looseEq a b.toPrimitive else strictEq a b
termination_by a.conversions + b.conversions
decreasing_by
  · simp [conversions]
  · simp [conversions]
  · have := conversions_toPrimitive_lt _ha; omega
  · have := conversions_toPrimitive_lt _hb; omega

/-- How two values compare. -/
structure Comparison where
  loose : Bool
  looseSwapped : Bool
  strict : Bool
  sameKind : Bool
  kindLess : Bool

def compare (a b : Value) : Comparison where
  loose := looseEq a b
  looseSwapped := looseEq b a
  strict := strictEq a b
  sameKind := a.kind == b.kind
  kindLess := a.kind.code < b.kind.code

end RecordWalk.Value
