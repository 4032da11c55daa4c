import EventCalendar.Listing.Parameter
import EventCalendar.Listing.Predicate

/-!
# The listing statement

A listing is asked for by four filters and options: raw conditions with named values, an order, a
page, and whether hidden events count. `plan` decides whether there is a statement to run at all:
none is needed if no dimension is active. `Statement.items` is the text of the statement. Its inner
query takes the best priority of each activity among the events of the active dimensions; the outer
query keeps the events of these dimensions that have it, drops those of invisible modules, and adds
the conditions.
-/

set_option autoImplicit false

namespace EventCalendar.Listing

/-- What is asked of a listing besides its filters. -/
structure Options where
  conditions : List String
  params : NamedValues
  order : Option String
  offset : Option Int
  limit : Option Int
  showHidden : Bool

/-- No conditions, the default order, no page, and visible events only. -/
def Options.default : Options := ⟨[], [], none, none, none, false⟩

/-- The order of a listing unless another one is asked for. -/
def defaultOrder : String := "e.timestart ASC, e.id ASC"

namespace Item

/-- A generated parameter for the value of a column. -/
def ofColumn (c : Column) (b : Binding) : Item := .fresh c.label b

/-- Items with a text between any two of them. -/
def joined (separator : String) : List (List Item) → List Item
  | [] => []
  | [items] => items
  | items :: rest => items ++ plain separator ++ joined separator rest

def column (table : String) (c : Column) : List Item := plain (table ++ "." ++ c.label)

def equals (table : String) (c : Column) (n : Int) : List Item :=
  column table c ++ plain " = " ++ [.ofColumn c (.scalar (.int n))]

end Item

def KeyTest.items (table : String) : KeyTest → List Item
  | .isZero key => Item.equals table key 0
  | .nonzero key =>
    Item.column table key ++ Item.plain " != " ++ [.ofColumn key (.scalar (.int 0))]
  | .among key ids =>
    Item.column table key ++ Item.plain " IN "
      ++ [.ofColumn key (.expanding (ids.toList.map .int))]

def Predicate.items (table : String) (p : Predicate) : List Item :=
  Item.joined " AND " (p.map (KeyTest.items table))

/-- The disjunction of predicates, in parentheses if `enclosed` and there are two or more. -/
def disjunctionItems (table : String) (enclosed : Bool) (ps : List Predicate) : List Item :=
  let inner := Item.joined " OR " (ps.map (Predicate.items table))
  if enclosed && 1 < ps.length then Item.plain "(" ++ inner ++ Item.plain ")" else inner

/-- A statement that lists events. -/
structure Statement where
  filters : Filters
  options : Options

namespace Statement

/-- The beginning of the statement: columns, the query of the best priorities, and the joins. -/
def head (s : Statement) : List Item :=
  let columns := ", ".intercalate (Column.all.map fun c => "e." ++ c.label)
  let activity := "ev.modulename, ev.instance, ev.eventtype"
  let visibility :=
    if s.options.showHidden then [] else Item.plain " AND " ++ Item.equals "ev" .visible 1
  Item.plain ("SELECT " ++ columns ++ " \nFROM event AS e JOIN (SELECT ev.modulename AS modulename, "
      ++ "ev.instance AS instance, ev.eventtype AS eventtype, min(ev.priority) AS priority \n"
      ++ "FROM event AS ev \nWHERE ")
    ++ disjunctionItems "ev" (!s.options.showHidden) (predicates s.filters) ++ visibility
    ++ Item.plain (" GROUP BY " ++ activity ++ ") AS fe ON e.modulename = fe.modulename AND "
      ++ "e.instance = fe.instance AND e.eventtype = fe.eventtype AND (e.priority = fe.priority OR "
      ++ "e.priority IS NULL AND fe.priority IS NULL) LEFT OUTER JOIN modules AS m "
      ++ "ON e.modulename = m.name")

/-- The rule for the module and the predicates of the outer query. -/
def outer (s : Statement) : List Item :=
  Item.plain " \nWHERE (" ++ Item.equals "m" .visible 1 ++ Item.plain " OR m.visible IS NULL) AND "
    ++ disjunctionItems "e" true (predicates s.filters)

/-- The conditions that are not empty. -/
def conditions (s : Statement) : List String := s.options.conditions.filter (· != "")

/-- The order of the statement, if it is not the default. -/
def order? (s : Statement) : Option String := s.options.order.filter (· != "")

def orderItems (s : Statement) : List Item :=
  match s.order? with
  | some order => Item.ofText [] order
  | none => Item.plain defaultOrder

/-- What follows the predicates: conditions, visibility and order. -/
def tail (s : Statement) : List Item :=
  s.conditions.flatMap (fun c => Item.plain " AND " ++ Item.ofText s.options.params c)
    ++ (if s.options.showHidden then [] else Item.plain " AND " ++ Item.equals "e" .visible 1)
    ++ Item.plain " ORDER BY " ++ s.orderItems

def offset (s : Statement) : Int := s.options.offset.getD 0

/-- The greatest number of events wanted, if there is one; zero is none. -/
def limit? (s : Statement) : Option Int := s.options.limit.filter (· != 0)

/-- The statement asks for a page. -/
def isPaged (s : Statement) : Bool := s.offset != 0 || s.limit?.isSome

def paging (s : Statement) : List Item :=
  if s.isPaged then
    Item.plain "\n LIMIT " ++ [.fresh "param" (.scalar (.int (s.limit?.getD (-1))))]
      ++ Item.plain " OFFSET " ++ [.fresh "param" (.scalar (.int s.offset))]
  else []

/-- The text of the statement. -/
def items (s : Statement) : List Item := s.head ++ s.outer ++ s.tail ++ s.paging

end Statement

/-! ## Planning -/

/-- Why there is no statement for a listing. -/
inductive PlanFault
  | service (e : ServiceError)
  /-- A value is given for a name that only looks like a placeholder. -/
  | orphan (name : String)

def PlanFault.message : PlanFault → String
  | .service e => e.message
  | .orphan name =>
    "This text() construct doesn't define a bound parameter named " ++ Text.quote name

/-- Refuses a negative offset, then a negative limit. -/
def checkPage (o : Options) : Except ServiceError Unit :=
  if o.offset.any (· < 0) then
    .error (.validation "offset must not be negative" (some "offset") "invalid")
  else if o.limit.any (· < 0) then
    .error (.validation "limit must not be negative" (some "limit") "invalid")
  else .ok ()

theorem checkPage_eq_ok_iff {o : Options} :
    checkPage o = .ok () ↔ (∀ n, o.offset = some n → 0 ≤ n) ∧ ∀ n, o.limit = some n → 0 ≤ n := by
  unfold checkPage
  cases o.offset <;> cases o.limit <;> grind

/-- The first name in the conditions that has a value but no placeholder. -/
def orphan? (o : Options) : Option String :=
  o.conditions.findSome? (Placeholder.orphanName? o.params)

/-- The statement for filters; there is none if no dimension is active. -/
def build (filters : Filters) (o : Options) : Except PlanFault (Option Statement) := do
  (checkPage o).mapError .service
  if (predicates filters).isEmpty then pure none
  else
    match orphan? o with
    | some name => throw (.orphan name)
    | none => pure (some ⟨filters, o⟩)

/-- The statement that a listing has to run, if any: the page is checked first, then the filters in
their order. -/
def plan (values : ByDimension Value) (o : Options) : Except PlanFault (Option Statement) := do
  (checkPage o).mapError .service
  let filters ← (Filters.coerce values).mapError .service
  if filters.allNone then pure none else build filters o

end EventCalendar.Listing
