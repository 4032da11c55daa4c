import EventCalendar.Event.Draft
import EventCalendar.Sql.Cell

/-!
# Rows

The rows of the two tables, events and modules, and what a listing derives from them: the activity
that an event belongs to and the best priority of an activity.
-/

set_option autoImplicit false

namespace EventCalendar

/-- A stored event: its id and a cell for every other column. -/
structure Event where
  id : Int
  cell : Column → Cell

namespace Event

def get (e : Event) (c : Column) : Cell := if c = .id then .int e.id else e.cell c

@[simp] theorem get_id (e : Event) : e.get .id = .int e.id := rfl

theorem get_of_ne {e : Event} {c : Column} (h : c ≠ .id) : e.get c = e.cell c := by simp [get, h]

/-- The event as a draft: every column reads as a value. -/
def draft (e : Event) : Draft := ⟨fun c => (e.get c).value⟩

def scope (e : Event) : Scope := e.draft.scope

end Event

/-- The cell is of the declared type of the column: an integer or a text, or null where the column
may be null. -/
def Column.Holds (c : Column) (x : Cell) : Prop :=
  (c.isOptional = true ∧ x = .null) ∨
    (if c.isText then ∃ s, x = .text s else ∃ i, x = .int i ∧ Cell.fits i = true)

/-- Every column of the event holds a cell of its declared type. -/
def Event.WellTyped (e : Event) : Prop := ∀ c : Column, c.Holds (e.get c)

/-- The priority of a change made for a single user. It wins over those of changes for groups, which
are positive, and over an event without a priority. -/
def userOverridePriority : Int := 0

inductive ModuleColumn
  | id
  | name
  | visible
  deriving DecidableEq, Repr

def ModuleColumn.label : ModuleColumn → String
  | .id => "id"
  | .name => "name"
  | .visible => "visible"

def ModuleColumn.ofLabel? (s : String) : Option ModuleColumn :=
  [ModuleColumn.id, .name, .visible].find? fun c => c.label == s

/-- A stored module. -/
structure Module where
  id : Int
  name : Cell
  visible : Cell
  deriving DecidableEq, Repr

def Module.get (m : Module) : ModuleColumn → Cell
  | .id => .int m.id
  | .name => m.name
  | .visible => m.visible

structure Tables where
  events : List Event
  modules : List Module

def Tables.empty : Tables := ⟨[], []⟩

/-- What an event was generated by: the name of a module, an instance of it, and the kind of the
event. Only the events with the best priority of an activity are listed. -/
structure Activity where
  modulename : Cell
  number : Cell
  eventtype : Cell
  deriving DecidableEq, Repr

def Event.activity (e : Event) : Activity :=
  ⟨e.get .modulename, e.get .instance, e.get .eventtype⟩

/-- The columns of an activity and its best priority. -/
inductive BestColumn
  | modulename
  | number
  | eventtype
  | priority
  deriving DecidableEq, Repr

def BestColumn.label : BestColumn → String
  | .modulename => "modulename"
  | .number => "instance"
  | .eventtype => "eventtype"
  | .priority => "priority"

def BestColumn.ofLabel? (s : String) : Option BestColumn :=
  [BestColumn.modulename, .number, .eventtype, .priority].find? fun c => c.label == s

/-- An activity with the best priority among some of its events; null if none of them has one. -/
structure Best where
  activity : Activity
  priority : Cell
  deriving DecidableEq, Repr

def Best.get (b : Best) : BestColumn → Cell
  | .modulename => b.activity.modulename
  | .number => b.activity.number
  | .eventtype => b.activity.eventtype
  | .priority => b.priority

/-- What a condition is about: an event, the best priority of its activity, and its module, if there
is one. -/
structure Row where
  event : Event
  best : Best
  module? : Option Module

/-- An event on its own. -/
def Row.ofEvent (e : Event) : Row := ⟨e, ⟨e.activity, .null⟩, none⟩

end EventCalendar
