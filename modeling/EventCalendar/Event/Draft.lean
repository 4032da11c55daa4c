import EventCalendar.Event.Column
import EventCalendar.Value.Text

/-!
# Drafts

A draft is an event as a caller describes it, before it is stored: a value for each column, null
where none was given. The scope of an event is decided by the first of its keys, in the order group,
course, category, user, that is set; without any, it is an event of the site.
-/

set_option autoImplicit false

namespace EventCalendar

/-- To whom an event belongs. -/
inductive Scope
  | site
  | user
  | group
  | course
  | category
  deriving DecidableEq, Repr

def Scope.name : Scope → String
  | .site => "site"
  | .user => "user"
  | .group => "group"
  | .course => "course"
  | .category => "category"

def Scope.ofName? (s : String) : Option Scope :=
  [Scope.site, .user, .group, .course, .category].find? fun x => x.name == s

def Scope.ofKeys (group course category user : Bool) : Scope :=
  if group then .group
  else if course then .course
  else if category then .category
  else if user then .user
  else .site

/-- An event as a caller describes it. -/
structure Draft where
  value : Column → Value

/-- Why fields do not describe an event. -/
inductive FieldFault
  /-- Events have no such field. -/
  | unknown (name : String)
  /-- The scope follows from the keys and cannot be given. -/
  | scopeGiven
  deriving DecidableEq, Repr

def FieldFault.message : FieldFault → String
  | .unknown name => Text.quote name ++ " is an invalid keyword argument for Event"
  | .scopeGiven => "property 'scope' of 'Event' object has no setter"

namespace Draft

def blank : Draft := ⟨fun _ => .null⟩

/-- The draft with one more field. Columns are the only fields: names that a mapped class has beside
its columns, such as `metadata` and `registry`, are unknown here. -/
def set (d : Draft) (name : String) (v : Value) : Except FieldFault Draft :=
  match Column.ofLabel? name with
  | some c => .ok ⟨fun c' => if c' = c then v else d.value c'⟩
  | none => .error (if name = "scope" then .scopeGiven else .unknown name)

def ofFields (fields : List (String × Value)) : Except FieldFault Draft :=
  fields.foldlM (fun d field => d.set field.1 field.2) blank

def scope (d : Draft) : Scope :=
  .ofKeys (d.value .groupid).isTruthy (d.value .courseid).isTruthy (d.value .categoryid).isTruthy
    (d.value .userid).isTruthy

/-- One line that identifies an event. -/
def line (d : Draft) : String :=
  "<Event id=" ++ (d.value .id).plain ++ " " ++ (d.value .modulename).plain ++ ":"
    ++ (d.value .instance).plain ++ ":" ++ (d.value .eventtype).plain ++ " priority="
    ++ (d.value .priority).plain ++ ">"

end Draft

end EventCalendar
