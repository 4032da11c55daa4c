import EventCalendar.Listing.Predicate
import EventCalendar.Sql.Reader

/-!
# Evaluating a listing

The rows that a listing selects from the tables. The candidates are the events of the active
dimensions; each activity among them has a best priority, the least one that is not null. Every
stored event that has the best priority of its activity is joined with it, and with its module if
there is one. The rows that satisfy the condition are sorted and cut to the page.
-/

set_option autoImplicit false

namespace EventCalendar.Listing

/-! ## Candidates and best priorities -/

def visibleExpr : Expr := .compare .eq (.column (.event .visible)) (.constant (.int 1))

/-- The condition on candidates. -/
def candidateExpr (f : Filters) (showHidden : Bool) : Expr :=
  if showHidden then dimensionExpr f else .and (dimensionExpr f) visibleExpr

/-- The events that compete for the best priority of their activities. -/
def candidates (f : Filters) (showHidden : Bool) (events : List Event) : List Event :=
  events.filter fun e => (candidateExpr f showHidden).holds (.ofEvent e)

/-- The lesser of two priorities; null is no priority. -/
def lesser (a b : Cell) : Cell :=
  if a = .null then b else if b = .null then a else if b.compare a = .lt then b else a

@[simp] theorem lesser_null_left (a : Cell) : lesser .null a = a := by simp [lesser]

@[simp] theorem lesser_null_right (a : Cell) : lesser a .null = a := by
  unfold lesser
  split
  · rename_i h
    exact h.symm
  · simp

def leastPriority (events : List Event) : Cell :=
  (events.map (·.get .priority)).foldl lesser .null

/-- The activities of events, each once. -/
def activities (events : List Event) : List Activity := (events.map Event.activity).eraseDups

/-- The best priorities of the activities of candidates. -/
def bests (candidates : List Event) : List Best :=
  (activities candidates).map fun a =>
    ⟨a, leastPriority (candidates.filter fun e => e.activity = a)⟩

/-! ## Joins -/

def equalColumns (a b : Ref) : Expr := .compare .eq (.column a) (.column b)

/-- The event has the best priority of the activity. Null is best only where there is no other. -/
def bestExpr : Expr :=
  .conjunction [equalColumns (.event .modulename) (.best .modulename),
    equalColumns (.event .instance) (.best .number),
    equalColumns (.event .eventtype) (.best .eventtype),
    .or (equalColumns (.event .priority) (.best .priority))
      (.and (Expr.column (.event .priority)).isNull (Expr.column (.best .priority)).isNull)]

/-- The module is the one that the event names. -/
def moduleExpr : Expr := equalColumns (.event .modulename) (.module .name)

/-- The rows of an event with a best priority: one for each module of its name, or one without. -/
def withModules (modules : List Module) (e : Event) (b : Best) : List Row :=
  match modules.filter fun m => moduleExpr.holds ⟨e, b, some m⟩ with
  | [] => [⟨e, b, none⟩]
  | found => found.map fun m => ⟨e, b, some m⟩

/-- The rows of all events that have the best priority of their activity. -/
def joinedRows (f : Filters) (showHidden : Bool) (t : Tables) : List Row :=
  let best := bests (candidates f showHidden t.events)
  t.events.flatMap fun e =>
    (best.filter fun b => bestExpr.holds ⟨e, b, none⟩).flatMap (withModules t.modules e)

/-! ## The outer condition -/

/-- The module of the event is not marked invisible. -/
def moduleRule : Expr :=
  .or (.compare .eq (.column (.module .visible)) (.constant (.int 1)))
    (Expr.column (.module .visible)).isNull

/-! ## Order and page -/

open Sql (OrderTerm)

/-- The order of two values; nulls come first, or where the key puts them. -/
def compareKeys (term : OrderTerm) (a b : Cell) : Ordering :=
  match term.nullsFirst, a, b with
  | some first, .null, b => if b = .null then .eq else if first then .lt else .gt
  | some first, _, .null => if first then .gt else .lt
  | _, a, b => if term.descending then b.compare a else a.compare b

def compareRows (order : List OrderTerm) (a b : Row) : Ordering :=
  order.foldr (fun term rest => (compareKeys term (term.key.eval a) (term.key.eval b)).then rest) .eq

/-- Sorts rows; rows of equal rank keep their order. -/
def sortRows (order : List OrderTerm) (rows : List Row) : List Row :=
  rows.mergeSort fun a b => compareRows order a b != .gt

/-- Skips and takes as a page asks for. -/
def cut {α : Type} (offset : Int) (limit? : Option Int) (xs : List α) : List α :=
  let rest := xs.drop offset.toNat
  match limit? with
  | some n => rest.take n.toNat
  | none => rest

/-- The events of the rows that satisfy the condition, in order. -/
def selected (f : Filters) (showHidden : Bool) (condition : Expr) (order : List OrderTerm)
    (t : Tables) : List Event :=
  (sortRows order ((joinedRows f showHidden t).filter condition.holds)).map (·.event)

end EventCalendar.Listing
