import EventCalendar.Value.Basic
import EventCalendar.Value.SlotOrder

/-!
# Collections of values

Equality of values as members of a set, sets from lists, and the order in which a set lists its
members: by the slots of their hashes if all members are numbers, else as they were put in.
-/

set_option autoImplicit false

namespace EventCalendar.Value

/-- Equality of numbers of any kind. -/
def sameNumber : Value → Value → Bool
  | .float x, .float y => x.compare? y == some .eq
  | .float x, b => b.integer?.any x.equalsInt
  | a, .float y => a.integer?.any y.equalsInt
  | a, b => a.integer?.isSome && a.integer? == b.integer?

mutual

/-- Equality of members of a set: numbers by their value, moments by their instant if both or
neither have an offset, all else by kind and content. -/
def same : Value → Value → Bool
  | .null, .null => true
  | .text a, .text b => a == b
  | .bytes a, .bytes b => a == b
  | .tuple a, .tuple b => sameItems a b
  | .frozenset a, .frozenset b => a.length == b.length && includedIn a b
  | .filter m xs, .filter n ys => m == n && decide (IdSet.ofList xs = IdSet.ofList ys)
  | .moment a, .moment b => a.offset.isSome == b.offset.isSome && a.instant == b.instant
  | a, b => sameNumber a b

def sameItems : List Value → List Value → Bool
  | [], [] => true
  | a :: as, b :: bs => same a b && sameItems as bs
  | _, _ => false

def includedIn : List Value → List Value → Bool
  | [], _ => true
  | a :: as, bs => bs.any (same a) && includedIn as bs

end

/-- The values without those equal to an earlier one. -/
def distinct (xs : List Value) : List Value :=
  xs.foldl (fun kept x => if kept.any (same · x) then kept else kept ++ [x]) []

/-- The prime modulus of number hashes. -/
def hashModulus : Nat := Nat.pow 2 61 - 1

/-- A hash with its sign; `-1` is no hash. -/
def signedHash (negative : Bool) (h : Nat) : Int :=
  if negative then (if h = 1 then -2 else -(h : Int)) else h

/-- The hash of a number: the number modulo a prime, where halving is multiplying by `2^60`. -/
def numberHash? : Value → Option Int
  | .bool b => some b.toNat
  | .int i => some (signedHash (i < 0) (i.natAbs % hashModulus))
  | .float x@(.finite negative ..) =>
    let k := x.denominator.log2 % 61
    let h := x.numerator.natAbs % hashModulus * Nat.pow 2 ((61 - k) % 61) % hashModulus
    some (signedHash negative h)
  | .float (.infinite negative) => some (signedHash negative 314159)
  | _ => none

/-- The hash as an unsigned word. -/
def slotHash? (v : Value) : Option Nat := (numberHash? v).map fun h => (h % Int.pow 2 64).toNat

/-- Distinct members in the order in which a set lists them. -/
def inSlotOrder (xs : List Value) : List Value :=
  match xs.mapM fun v => (slotHash? v).map (·, v) with
  | some hashed => SlotOrder.listing hashed
  | none => xs

/-- The members of a collection, in the order in which it lists them. -/
def members? : Value → Option (List Value)
  | .list items => some items
  | .tuple items => some items
  | .set items => some (inSlotOrder items)
  | .frozenset items => some (inSlotOrder items)
  | _ => none

def setOf (xs : List Value) : Value := .set (distinct xs)

def frozensetOf (xs : List Value) : Value := .frozenset (distinct xs)

end EventCalendar.Value
