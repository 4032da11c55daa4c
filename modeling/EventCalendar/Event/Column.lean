/-!
# Columns

The columns of the event table in their order, with the type, the default and the optionality of
each, and the columns of the module table.
-/

set_option autoImplicit false

namespace EventCalendar

inductive Column
  | id
  | name
  | description
  | format
  | categoryid
  | courseid
  | groupid
  | userid
  | repeatid
  | component
  | modulename
  | «instance»
  | type
  | eventtype
  | timestart
  | timeduration
  | timesort
  | visible
  | uuid
  | sequence
  | timemodified
  | subscriptionid
  | priority
  | location
  deriving DecidableEq, Repr

namespace Column

/-- All columns, in the order of the table. -/
def all : List Column := [.id, .name, .description, .format, .categoryid, .courseid, .groupid,
  .userid, .repeatid, .component, .modulename, .instance, .type, .eventtype, .timestart,
  .timeduration, .timesort, .visible, .uuid, .sequence, .timemodified, .subscriptionid, .priority,
  .location]

def label : Column → String
  | .id => "id"
  | .name => "name"
  | .description => "description"
  | .format => "format"
  | .categoryid => "categoryid"
  | .courseid => "courseid"
  | .groupid => "groupid"
  | .userid => "userid"
  | .repeatid => "repeatid"
  | .component => "component"
  | .modulename => "modulename"
  | .instance => "instance"
  | .type => "type"
  | .eventtype => "eventtype"
  | .timestart => "timestart"
  | .timeduration => "timeduration"
  | .timesort => "timesort"
  | .visible => "visible"
  | .uuid => "uuid"
  | .sequence => "sequence"
  | .timemodified => "timemodified"
  | .subscriptionid => "subscriptionid"
  | .priority => "priority"
  | .location => "location"

def ofLabel? (s : String) : Option Column := all.find? fun c => c.label == s

def isText : Column → Bool
  | .name | .description | .component | .modulename | .eventtype | .uuid | .location => true
  | _ => false

/-- The column may hold null in a record. -/
def isOptional : Column → Bool
  | .description | .component | .timesort | .subscriptionid | .priority | .location => true
  | _ => false

theorem mem_all (c : Column) : c ∈ all := by cases c <;> decide

theorem ofLabel?_label (c : Column) : ofLabel? c.label = some c := by cases c <;> decide

end Column

end EventCalendar
