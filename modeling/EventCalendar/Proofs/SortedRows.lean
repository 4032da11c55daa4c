import EventCalendar.Http.Events
import EventCalendar.Proofs.ListingRule
import EventCalendar.Proofs.StatementText
import Mathlib.Data.List.Nodup

/-!
# Sorted rows

The orders that listings use sort by one column of the event, then by its id, both in one direction.
On events of sound tables this is a linear order, so the sorted list does not depend on the order in
which the events are stored:

* `Event.compareBy`: the order, said on keys.
* `compareRows_orderBy`: the order of rows agrees with it.
* `pairwise_sorted`, `eq_of_sorted_of_perm`: the events of sorted rows ascend in it, which leaves no
  choice.
* `Http.SortKey.clause_isClause`: the clauses that stand for these orders.
-/

set_option autoImplicit false

namespace EventCalendar

open Std (TransCmp OrientedCmp)

/-! ## Cells -/

namespace Cell

def codes : Cell → List Nat
  | .text s => s.toList.map Char.toNat
  | _ => []

/-- The content of a column that no number but an integer is stored in. -/
def IsPlain (x : Cell) : Prop := x = .null ∨ (∃ i, x = .int i) ∨ ∃ s, x = .text s

theorem compareChars_eq (a b : List Char) :
    compareChars a b = Ord.compare (a.map Char.toNat) (b.map Char.toNat) := by
  induction a generalizing b with
  | nil => cases b <;> rfl
  | cons x a ih =>
    cases b with
    | nil => rfl
    | cons y b =>
      rw [compareChars, ih, List.map_cons, List.map_cons, List.compare_cons_cons]

theorem IsPlain.compare_eq {x y : Cell} (hx : x.IsPlain) (hy : y.IsPlain) :
    x.compare y = (Ord.compare x.rank y.rank).then
      ((Ord.compare x.integer y.integer).then (Ord.compare x.codes y.codes)) := by
  have hself : ∀ n : Nat, Ord.compare n n = .eq := fun n => Nat.compare_eq_eq.2 rfl
  rcases hx with rfl | ⟨i, rfl⟩ | ⟨s, rfl⟩ <;> rcases hy with rfl | ⟨j, rfl⟩ | ⟨u, rfl⟩
  all_goals try rfl
  · simp only [compare, rank, integer, codes, hself, Ordering.then]
    cases Ord.compare i j <;> rfl
  · simp only [compare, rank, integer, codes, hself, Ordering.then]
    exact compareChars_eq _ _

end Cell

/-! ## Events -/

namespace Event

/-- Events by a column, then by id. -/
def compareBy (c : Column) : Event → Event → Ordering :=
  compareLex (compareOn fun e => (e.get c).rank)
    (compareLex (compareOn fun e => (e.get c).integer)
      (compareLex (compareOn fun e => (e.get c).codes) (compareOn Event.id)))

instance (c : Column) : TransCmp (compareBy c) := by
  unfold compareBy
  infer_instance

/-- The same in one direction. -/
def compareToward (descending : Bool) (c : Column) (a b : Event) : Ordering :=
  if descending then compareBy c b a else compareBy c a b

instance (descending : Bool) (c : Column) : TransCmp (compareToward descending c) := by
  cases descending with
  | true => exact inferInstanceAs (TransCmp fun a b => compareBy c b a)
  | false => exact inferInstanceAs (TransCmp (compareBy c))

theorem id_eq_of_compareToward {descending : Bool} {c : Column} {a b : Event}
    (h : compareToward descending c a b = .eq) : a.id = b.id := by
  have key : ∀ {a b : Event}, compareBy c a b = .eq → a.id = b.id := by
    intro a b h
    simp only [compareBy, compareLex, compareOn, Ordering.then_eq_eq] at h
    exact Int.compare_eq_eq.1 h.2.2.2
  cases descending with
  | true => exact (key h).symm
  | false => exact key h

theorem WellTyped.isPlain {e : Event} (h : e.WellTyped) (c : Column) : (e.get c).IsPlain := by
  rcases h c with ⟨-, hnull⟩ | hc
  · exact .inl hnull
  · cases ht : c.isText with
    | true => exact .inr (.inr (by simpa [ht] using hc))
    | false =>
      simp only [ht, Bool.false_eq_true, if_false] at hc
      exact .inr (.inl (hc.imp fun _ hi => hi.1))

end Event

namespace Listing

open Sql (OrderTerm)

/-- The keys of an order by a column, then by id. -/
def orderBy (descending : Bool) (c : Column) : List OrderTerm :=
  [⟨.column (.event c), descending, none⟩, ⟨.column (.event .id), descending, none⟩]

/-- The order of rows agrees with that of their events. -/
theorem compareRows_orderBy {descending : Bool} {c : Column} {a b : Row} (ha : a.event.WellTyped)
    (hb : b.event.WellTyped) :
    compareRows (orderBy descending c) a b = a.event.compareToward descending c b.event := by
  have key : ∀ {a b : Event}, a.WellTyped → b.WellTyped →
      ((a.get c).compare (b.get c)).then ((a.get .id).compare (b.get .id)) = a.compareBy c b := by
    intro a b ha hb
    rw [(ha.isPlain c).compare_eq (hb.isPlain c)]
    simp only [Event.compareBy, compareLex, compareOn, Event.get_id, Cell.compare,
      Ordering.then_assoc]
  cases descending with
  | true =>
    rw [Event.compareToward, if_pos rfl, ← key hb ha]
    simp [compareRows, orderBy, compareKeys, Expr.eval, Ref.get]
  | false =>
    rw [Event.compareToward, if_neg (by simp), ← key ha hb]
    simp [compareRows, orderBy, compareKeys, Expr.eval, Ref.get]

theorem pairwise_sorted {descending : Bool} {c : Column} {rows : List Row}
    (h : ∀ row ∈ rows, row.event.WellTyped) :
    ((sortRows (orderBy descending c) rows).map (·.event)).Pairwise
      fun a b => (a.compareToward descending c b).isLE := by
  have hsort : sortRows (orderBy descending c) rows
      = rows.mergeSort fun a b => (a.event.compareToward descending c b.event).isLE := by
    have := List.map_mergeSort (f := id) (l := rows)
      (r := fun a b => compareRows (orderBy descending c) a b != .gt)
      (s := fun a b => (a.event.compareToward descending c b.event).isLE) fun a ha b hb => by
        rw [compareRows_orderBy (h a ha) (h b hb)]
        simp only [id]
        cases a.event.compareToward descending c b.event <;> rfl
    simpa [sortRows] using this
  rw [hsort, List.pairwise_map]
  refine List.pairwise_mergeSort (fun a b c => TransCmp.isLE_trans) (fun a b => ?_) rows
  have hswap : b.event.compareToward descending c a.event
      = (a.event.compareToward descending c b.event).swap := OrientedCmp.eq_swap
  rw [hswap]
  cases a.event.compareToward descending c b.event <;> rfl

/-- **Sorted lists of the same events are equal.** -/
theorem eq_of_sorted_of_perm {descending : Bool} {c : Column} {xs ys : List Event}
    (hperm : xs.Perm ys) (hids : (xs.map (·.id)).Nodup)
    (hx : xs.Pairwise fun a b => (a.compareToward descending c b).isLE)
    (hy : ys.Pairwise fun a b => (a.compareToward descending c b).isLE) : xs = ys := by
  refine hperm.eq_of_pairwise (fun a b ha hb hab hba => ?_) hx hy
  have heq : a.compareToward descending c b = .eq := by
    have hswap : b.compareToward descending c a = (a.compareToward descending c b).swap :=
      OrientedCmp.eq_swap
    rw [hswap] at hba
    cases h : a.compareToward descending c b <;> rw [h] at hab hba <;> first | rfl | contradiction
  exact List.inj_on_of_nodup_map hids ha (hperm.mem_iff.2 hb) (Event.id_eq_of_compareToward heq)

/-! ## Clauses -/

def orderByTokens (descending : Bool) (c : Column) : List Sql.Token :=
  let toward : Sql.Token := .word (if descending then "desc" else "asc")
  [.word "e", .symbol .dot, .word c.label, toward, .symbol .comma,
    .word "e", .symbol .dot, .word Column.id.label, toward]

/-- The text is a clause without placeholders that asks for an order. -/
structure IsClause (items : List Item) (descending : Bool) (c : Column) : Prop where
  tokens : Sql.Token.ofPieces (piecesOf items) = some (orderByTokens descending c)
  order : Sql.orderOf? (orderByTokens descending c) = some (orderBy descending c)

theorem defaultOrder_isClause : IsClause (Item.plain defaultOrder) false .timestart := ⟨rfl, rfl⟩

end Listing

namespace Http.SortKey

open Listing

def column : SortKey → Column
  | .timestart => .timestart
  | .timestartDescending => .timestart
  | .timesort => .timesort
  | .timesortDescending => .timesort
  | .name => .name

def isDescending : SortKey → Bool
  | .timestartDescending => true
  | .timesortDescending => true
  | _ => false

theorem clause_isClause (k : SortKey) :
    IsClause (Item.ofText [] k.clause) k.isDescending k.column := by
  cases k <;> exact ⟨rfl, rfl⟩

theorem names_clause (k : SortKey) : Placeholder.names k.clause = [] := by
  cases k <;> rfl

end Http.SortKey

end EventCalendar
