/-!
# Documents

The structured data that the service answers with: what its responses and serialized events are made
of before they become text.
-/

set_option autoImplicit false

namespace EventCalendar

/-- A document: null, a truth value, a number, a text, a list, or named entries. -/
inductive Document
  | null
  | bool (b : Bool)
  | int (i : Int)
  | text (s : String)
  | array (items : List Document)
  | object (entries : List (String × Document))

namespace Document

def ofText? : Option String → Document
  | some s => .text s
  | none => .null

def ofInt? : Option Int → Document
  | some i => .int i
  | none => .null

end Document

end EventCalendar
