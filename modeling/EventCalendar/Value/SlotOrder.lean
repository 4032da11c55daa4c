/-!
# Slot order

The order in which an open-addressed table lists its members. The table has `2^k` slots, eight at
first. A member goes to the slot of its hash modulo the size; if that is taken, nine more slots in a
row are tried where the table is long enough, and after them the next slot of a sequence that mixes
in the higher bits of the hash. A table that is three fifths full is rebuilt for four times its
members.
-/

set_option autoImplicit false

namespace EventCalendar.SlotOrder

variable {α : Type}

/-- The slots of a table; each holds a hash and a member, or nothing. -/
abbrev Table (α : Type) := Array (Option (Nat × α))

def isFree (t : Table α) (i : Nat) : Bool :=
  match t[i]? with
  | some none => true
  | _ => false

/-- The first free slot of the sequence for a hash; `perturb` carries its unused bits. -/
def freeSlot? (t : Table α) : Nat → Nat → Nat → Option Nat
  | 0, _, _ => none
  | fuel + 1, i, perturb =>
    let run := if i + 9 ≤ t.size - 1 then 10 else 1
    match (List.range run).find? fun k => isFree t (i + k) with
    | some k => some (i + k)
    | none =>
      let perturb := perturb / 32
      freeSlot? t fuel ((i * 5 + 1 + perturb) % t.size) perturb

/-- Puts a new member into the table. -/
def place (t : Table α) (member : Nat × α) : Table α :=
  match freeSlot? t (t.size + 64) (member.1 % t.size) member.1 with
  | some i => t.setIfInBounds i (some member)
  | none => t

def members (t : Table α) : List (Nat × α) := t.toList.filterMap id

/-- The least power of two above `n`, eight at least. -/
def sizeAbove (n : Nat) : Nat := max 8 (Nat.pow 2 (n.log2 + 1))

/-- Puts in a new member and rebuilds a table that has become too full. -/
def add (t : Table α) (member : Nat × α) : Table α :=
  let t := place t member
  let all := members t
  if all.length * 5 < (t.size - 1) * 3 then t
  else
    let size := sizeAbove (if 50000 < all.length then all.length * 2 else all.length * 4)
    all.foldl place (Array.replicate size none)

/-- Distinct members with their hashes, listed in slot order. -/
def listing (xs : List (Nat × α)) : List α :=
  (members (xs.foldl add (Array.replicate 8 none))).map (·.2)

end EventCalendar.SlotOrder
