import EventCalendar.Store.Insert
import EventCalendar.Store.Retrieval
import EventCalendar.Store.Visibility

/-!
# Checked operations

The operations of the store with checked records as results. The check comes after the operation,
and does not undo it.
-/

set_option autoImplicit false

namespace EventCalendar.Store

open Listing (Options Window)

def createRecord (fields : List (String × Value)) : Action Record := do
  record (← createEvent fields)

def rawRecords (filters : ByDimension Value) (o : Options) : Action (List Record) := do
  records (← rawEvents filters o)

def recordsInWindow (filters : ByDimension Value) (w : Window) (o : Options) :
    Action (List Record) := do
  records (← eventsInWindow filters w o)

def setModuleRecord (name visible : Value) : Action ModuleRecord := do
  moduleRecord (← setModuleVisibility name visible).fields

end EventCalendar.Store
