import EventCalendar.Document
import EventCalendar.Event.Draft
import EventCalendar.Text.Utf8

/-!
# Records

A record is an event whose fields have been checked: every field is an integer or a text, or null
where the field is optional. A field may be given in another form that means the same: integers as
truth values, integral doubles or text. All faulty fields are reported, in their order.
-/

set_option autoImplicit false

namespace EventCalendar

/-- The content of a checked field. -/
inductive Datum
  | null
  | int (i : Int)
  | text (s : String)
  deriving DecidableEq, Repr

def Datum.document : Datum → Document
  | .null => .null
  | .int i => .int i
  | .text s => .text s

/-- What is wrong with a field. -/
inductive FieldError
  | missing
  | noInteger
  | unreadableInteger
  | fractional
  | infinite
  | noText
  | noUtf8
  | noScope
  deriving DecidableEq, Repr

def FieldError.name : FieldError → String
  | .missing => "missing"
  | .noInteger => "int_type"
  | .unreadableInteger => "int_parsing"
  | .fractional => "int_from_float"
  | .infinite => "finite_number"
  | .noText => "string_type"
  | .noUtf8 => "string_unicode"
  | .noScope => "enum"

/-- The faulty fields of a record, by name. -/
abbrev RecordFaults := List (String × FieldError)

namespace Datum

/-- The integer written in a field: ASCII digits, grouped by single underscores, with a sign and a
fraction of zeros. -/
def integerOfText? (s : List Char) : Option Int :=
  let (negative, body) := Text.splitSign (Text.trimBy Text.isNumberBlank s)
  let inRun := fun c => c == '_' || c.isDigit
  let whole := body.takeWhile inRun
  let fractionFits := match body.dropWhile inRun with
    | [] => true
    | c :: rest => c == '.' && rest.all (· == '0')
  if whole.isEmpty || whole.head? == some '_' || !fractionFits then none
  else (Text.groupedDigits? Text.asciiDigit? whole).map fun ds =>
    Text.signed negative (Text.ofDigits ds)

def readInt : Value → Except FieldError Int
  | .int i => .ok i
  | .bool b => .ok b.toNat
  | .float x@(.finite ..) => if x.isInteger then .ok x.truncate else .error .fractional
  | .float _ => .error .infinite
  | .text s => (integerOfText? s.toList).elim (.error .unreadableInteger) .ok
  | .bytes bs =>
    ((Text.decodeUtf8? bs).bind fun s => integerOfText? s.toList).elim
      (.error .unreadableInteger) .ok
  | _ => .error .noInteger

def readText : Value → Except FieldError String
  | .text s => .ok s
  | .bytes bs => (Text.decodeUtf8? bs).elim (.error .noUtf8) .ok
  | _ => .error .noText

def read (c : Column) (v : Value) : Except FieldError Datum :=
  if c.isOptional && v.isNull then .ok .null
  else if c.isText then (readText v).map .text
  else (readInt v).map .int

end Datum

/-- A checked event. -/
structure Record where
  datum : Column → Datum
  scope : Scope

namespace Record

/-- The content of a field that is not given; an id has to be given. -/
def missing : Column → Except FieldError Datum
  | .id => .error .missing
  | .name => .ok (.text "")
  | .description => .ok .null
  | .format => .ok (.int 0)
  | .categoryid => .ok (.int 0)
  | .courseid => .ok (.int 0)
  | .groupid => .ok (.int 0)
  | .userid => .ok (.int 0)
  | .repeatid => .ok (.int 0)
  | .component => .ok .null
  | .modulename => .ok (.text "0")
  | .instance => .ok (.int 0)
  | .type => .ok (.int 0)
  | .eventtype => .ok (.text "")
  | .timestart => .ok (.int 0)
  | .timeduration => .ok (.int 0)
  | .timesort => .ok .null
  | .visible => .ok (.int 1)
  | .uuid => .ok (.text "")
  | .sequence => .ok (.int 1)
  | .timemodified => .ok (.int 0)
  | .subscriptionid => .ok .null
  | .priority => .ok .null
  | .location => .ok .null

def readScope : Option Value → Except FieldError Scope
  | none => .ok .site
  | some (.text s) => (Scope.ofName? s).elim (.error .noScope) .ok
  | some _ => .error .noScope

/-- The fault of a result, under a name. -/
def faultOf {α : Type} (name : String) : Except FieldError α → RecordFaults
  | .ok _ => []
  | .error e => [(name, e)]

/-- The record of checked fields, or all faults in the order of the columns. -/
def assemble (field : Column → Except FieldError Datum) (scope : Except FieldError Scope) :
    Except RecordFaults Record :=
  let faults := Column.all.flatMap (fun c => faultOf c.label (field c)) ++ faultOf "scope" scope
  match faults, scope with
  | [], .ok s => .ok ⟨fun c => (field c).toOption.getD .null, s⟩
  | faults, _ => .error faults

/-- The record of named fields; fields of other names do not matter. -/
def ofFields (fields : List (String × Value)) : Except RecordFaults Record :=
  assemble
    (fun c => match fields.lookup c.label with
      | some v => Datum.read c v
      | none => missing c)
    (readScope (fields.lookup "scope"))

/-- The record of an event, whose scope follows from its keys. -/
def ofDraft (d : Draft) : Except RecordFaults Record :=
  assemble (fun c => Datum.read c (d.value c)) (.ok d.scope)

def entries (r : Record) : List (String × Document) :=
  Column.all.map (fun c => (c.label, (r.datum c).document)) ++ [("scope", .text r.scope.name)]

def document (r : Record) : Document := .object r.entries

def item (r : Record) : Document := .object (r.entries ++ [("kind", .text "calendar#event")])

end Record

/-- A checked module. -/
structure ModuleRecord where
  id : Int
  name : String
  visible : Int
  deriving DecidableEq, Repr

namespace ModuleRecord

/-- The module of checked fields, or all faults in order. -/
def assemble (id : Except FieldError Int) (name : Except FieldError String)
    (visible : Except FieldError Int) : Except RecordFaults ModuleRecord :=
  match id, name, visible with
  | .ok id, .ok name, .ok visible => .ok ⟨id, name, visible⟩
  | _, _, _ =>
    .error (Record.faultOf "id" id ++ Record.faultOf "name" name ++ Record.faultOf "visible" visible)

/-- The module of named fields; a module is visible unless stated otherwise. -/
def ofFields (fields : List (String × Value)) : Except RecordFaults ModuleRecord :=
  assemble ((fields.lookup "id").elim (.error .missing) Datum.readInt)
    ((fields.lookup "name").elim (.error .missing) Datum.readText)
    ((fields.lookup "visible").elim (.ok 1) Datum.readInt)

def document (m : ModuleRecord) : Document :=
  .object [("id", .int m.id), ("name", .text m.name), ("visible", .int m.visible)]

end ModuleRecord

/-- A listing of checked events as a document; a limit is shown unless it is zero. -/
def listingDocument (items : List Document) (offset limit : Option Int) : Document :=
  let shownLimit := match limit with
    | none => []
    | some 0 => []
    | some n => [("limit", .int n)]
  .object ([("kind", .text "calendar#events"), ("offset", .ofInt? offset), ("items", .array items)]
    ++ shownLimit)

/-- Checks events one after the other; the first faulty event is reported. -/
def recordsOf (drafts : List Draft) : Except RecordFaults (List Record) :=
  drafts.mapM Record.ofDraft

end EventCalendar
