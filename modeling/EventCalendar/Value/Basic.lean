import EventCalendar.Decimal.Binary64
import EventCalendar.Filter.Spec
import EventCalendar.Time.Moment

/-!
# Caller values

What a caller may hand over as a filter, a parameter or a field of an event: a scalar, a collection
of values, a filter built beforehand, or a moment.
-/

set_option autoImplicit false

namespace EventCalendar

/-- A value of any kind. A filter built by hand keeps its ids as they were listed. -/
inductive Value
  | null
  | bool (b : Bool)
  | int (i : Int)
  | float (x : Binary64)
  | text (s : String)
  | bytes (bytes : List UInt8)
  | list (items : List Value)
  | tuple (items : List Value)
  | set (items : List Value)
  | frozenset (items : List Value)
  | dict (entries : List (String × Value))
  | filter (mode : FilterMode) (listed : List Int)
  | moment (t : Time.Moment)

namespace Value

def kind : Value → String
  | .null => "NoneType"
  | .bool _ => "bool"
  | .int _ => "int"
  | .float _ => "float"
  | .text _ => "str"
  | .bytes _ => "bytes"
  | .list _ => "list"
  | .tuple _ => "tuple"
  | .set _ => "set"
  | .frozenset _ => "frozenset"
  | .dict _ => "dict"
  | .filter .. => "FilterSpec"
  | .moment _ => "datetime.datetime"

/-- The value counts as true: it is neither null, zero, nor empty. -/
def isTruthy : Value → Bool
  | .null => false
  | .bool b => b
  | .int i => i != 0
  | .float x => !x.isZero
  | .text s => s != ""
  | .bytes bs => !bs.isEmpty
  | .list items => !items.isEmpty
  | .tuple items => !items.isEmpty
  | .set items => !items.isEmpty
  | .frozenset items => !items.isEmpty
  | .dict entries => !entries.isEmpty
  | .filter .. => true
  | .moment _ => true

def isNull : Value → Bool
  | .null => true
  | _ => false

/-- The integer a value is: an integer, or a truth value as 0 or 1. -/
def integer? : Value → Option Int
  | .bool b => some b.toNat
  | .int i => some i
  | _ => none

/-- The id a value is: an integer, but no truth value. -/
def id? : Value → Option Int
  | .int i => some i
  | _ => none

/-- The items of a list, a tuple or a set, as they were put in. -/
def items? : Value → Option (List Value)
  | .list items => some items
  | .tuple items => some items
  | .set items => some items
  | .frozenset items => some items
  | _ => none

end Value

end EventCalendar
