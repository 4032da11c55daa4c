import EventCalendar.Error
import EventCalendar.Filter.Dimension

/-!
# Filters from caller values

Null, false and empty collections select nothing, true selects everything, an id or a collection of
ids selects those; a filter is taken as it is. Truth values are no ids. Any other value is refused
under the name of its dimension.
-/

set_option autoImplicit false

namespace EventCalendar.FilterSpec

/-- The filter for given ids: one id or a non-empty collection of ids. -/
def specific? (v : Value) : Option FilterSpec :=
  match v.id? with
  | some i => some (ofIds [i])
  | none =>
    match v.items? with
    | some [] => none
    | some items => (items.mapM Value.id?).map ofIds
    | none => none

/-- The filter that a caller value means. -/
def coerce? (v : Value) : Option FilterSpec :=
  match v with
  | .filter mode listed => some ⟨mode, .ofList listed⟩
  | .null => some nobody
  | .bool false => some nobody
  | .bool true => some everyone
  | v => if v.items?.any List.isEmpty then some nobody else specific? v

/-- The filter for given ids, or the error for the dimension. -/
def specific (dimension : String) (v : Value) : Except ServiceError FilterSpec :=
  match specific? v with
  | some f => .ok f
  | none => .error (.invalidFilter dimension v)

/-- The filter that a caller value means, or the error for the dimension. -/
def coerce (dimension : String) (v : Value) : Except ServiceError FilterSpec :=
  match coerce? v with
  | some f => .ok f
  | none => .error (.invalidFilter dimension v)

theorem coerce_eq_ok_iff {dimension : String} {v : Value} {f : FilterSpec} :
    coerce dimension v = .ok f ↔ coerce? v = some f := by
  simp only [coerce]
  split <;> simp_all

end EventCalendar.FilterSpec

namespace EventCalendar

/-- The filters of the four dimensions. -/
abbrev Filters := ByDimension FilterSpec

namespace Filters

/-- The filters that four caller values mean; the first dimension with a malformed value is
reported. -/
def coerce (values : ByDimension Value) : Except ServiceError Filters :=
  values.traverse fun d v => FilterSpec.coerce d.name v

def allNone (f : Filters) : Bool := f.toList.all FilterSpec.isNone

end Filters

end EventCalendar
