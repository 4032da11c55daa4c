import EventCalendar.Filter.Coerce
import EventCalendar.Sql.Expr

/-!
# Dimension predicates

Which events belong to a dimension: its key is set, or one of the wanted ids, and the keys that win
over it are not set. The key of a group wins over all, that of a course over those of categories and
users, that of a category over that of a user.
-/

set_option autoImplicit false

namespace EventCalendar

def Dimension.key : Dimension → Column
  | .users => .userid
  | .groups => .groupid
  | .courses => .courseid
  | .categories => .categoryid

/-- The scope of the events of a dimension. -/
def Dimension.scope : Dimension → Scope
  | .users => .user
  | .groups => .group
  | .courses => .course
  | .categories => .category

namespace Listing

inductive KeyTest
  | isZero (key : Column)
  | nonzero (key : Column)
  | among (key : Column) (ids : IdSet)
  deriving DecidableEq, Repr

/-- Tests that all have to hold. -/
abbrev Predicate := List KeyTest

namespace KeyTest

/-- The test of a dimension's key that a filter asks for. -/
def ofFilter (key : Column) (f : FilterSpec) : KeyTest :=
  if f.mode = .all then .nonzero key else .among key f.ids

def expr : KeyTest → Expr
  | .isZero key => .compare .eq (.column (.event key)) (.constant (.int 0))
  | .nonzero key => .compare .ne (.column (.event key)) (.constant (.int 0))
  | .among key ids =>
    .among (.column (.event key)) (ids.toList.map fun i => .constant (.int i))

end KeyTest

/-- The predicate of a dimension; none if its filter selects nothing. -/
def predicate? (d : Dimension) (f : FilterSpec) : Option Predicate :=
  if f.isNone then none
  else
    match d with
    | .users => some [.ofFilter .userid f, .isZero .courseid, .isZero .groupid, .isZero .categoryid]
    | .groups => some [.ofFilter .groupid f]
    | .courses => some [.isZero .groupid, .ofFilter .courseid f]
    | .categories => some [.isZero .groupid, .isZero .courseid, .ofFilter .categoryid f]

def predicates (f : Filters) : List Predicate :=
  Dimension.all.filterMap fun d => predicate? d (f.get d)

/-- An event belongs to an active dimension: one of the predicates holds. -/
def dimensionExpr (f : Filters) : Expr :=
  .disjunction ((predicates f).map fun p => .conjunction (p.map KeyTest.expr))

theorem predicate?_eq_none_iff {d : Dimension} {f : FilterSpec} :
    predicate? d f = none ↔ f.isNone = true := by
  unfold predicate?
  split
  · simp_all
  · cases d <;> simp_all

theorem predicates_eq_nil_iff {f : Filters} : predicates f = [] ↔ f.allNone = true := by
  simp only [predicates, List.filterMap_eq_nil_iff, predicate?_eq_none_iff, Filters.allNone,
    List.all_eq_true, ByDimension.toList, Dimension.all]
  simp [ByDimension.get]

end Listing

end EventCalendar
