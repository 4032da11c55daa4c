import EventCalendar.Decimal.Shortest
import EventCalendar.Text.Integer
import EventCalendar.Value.Collection

/-!
# Values in messages

How a message shows a value: constants by name, texts quoted, doubles by their shortest decimal,
collections in brackets with their members in order.
-/

set_option autoImplicit false

namespace EventCalendar.Value

def commaSeparated (parts : List String) : String := ", ".intercalate parts

def boolText (b : Bool) : String := if b then "True" else "False"

def braced (parts : List String) : String := "\x7b" ++ commaSeparated parts ++ "\x7d"

/-- Ids in the order in which a set of them lists its members. -/
def idListing (listed : List Int) : List Int :=
  (inSlotOrder (distinct (listed.map .int))).filterMap id?

/-- A filter built by hand. -/
def filterText (mode : FilterMode) (listed : List Int) : String :=
  let ids := idListing listed
  let shown := if ids.isEmpty then "frozenset()"
    else "frozenset(" ++ braced (ids.map Text.decimal) ++ ")"
  "FilterSpec(mode=<FilterMode." ++ mode.name ++ ": '" ++ mode.name ++ "'>, ids=" ++ shown ++ ")"

mutual

/-- A value as a message shows it. The members of a set come in the order of `texts`. -/
def shown : Value → String
  | .null => "None"
  | .bool b => boolText b
  | .int i => Text.decimal i
  | .float x => x.text
  | .text s => Text.quote s
  | .bytes bs => Text.quoteBytes bs
  | .list items => "[" ++ commaSeparated (shownAll items) ++ "]"
  | .tuple [item] => "(" ++ shown item ++ ",)"
  | .tuple items => "(" ++ commaSeparated (shownAll items) ++ ")"
  | .set items =>
    if items.isEmpty then "set()" else braced (arranged items (shownAll items))
  | .frozenset items =>
    if items.isEmpty then "frozenset()"
    else "frozenset(" ++ braced (arranged items (shownAll items)) ++ ")"
  | .dict entries => braced (shownEntries entries)
  | .filter mode listed => filterText mode listed
  | .moment t => t.text

def shownAll : List Value → List String
  | [] => []
  | v :: rest => shown v :: shownAll rest

def shownEntries : List (String × Value) → List String
  | [] => []
  | (key, v) :: rest => (Text.quote key ++ ": " ++ shown v) :: shownEntries rest

/-- The texts of a set's members in the order in which the set lists them. -/
def arranged (items : List Value) (texts : List String) : List String :=
  match items.mapM slotHash? with
  | some hashes => SlotOrder.listing (hashes.zip texts)
  | none => texts

end

/-- A value as plain text: a text is itself, all else as in messages; a moment in ISO form. -/
def plain : Value → String
  | .text s => s
  | .moment t => t.isoText
  | v => v.shown

end EventCalendar.Value
