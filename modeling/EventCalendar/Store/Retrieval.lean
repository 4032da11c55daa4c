import EventCalendar.Listing.Window
import EventCalendar.Store.Connection

/-!
# Retrieving events

The events that a listing selects from the tables that a session sees. Nothing is run if no
dimension is active. A listing never changes the session.
-/

set_option autoImplicit false

namespace EventCalendar.Store

open Listing (Options Window Statement)

/-- The events that came of a statement, or why it failed. -/
def answer : Except Listing.ExecutionFault (List Event) → Action (List Event)
  | .ok events => pure events
  | .error f => throw (.ofExecutionFault f)

/-- Asks for events in a session, which has to be usable. -/
def query (execute : Option Tables → Except Listing.ExecutionFault (List Event)) :
    Action (List Event) := do
  let c ← get
  if c.failed then throw (.query .pendingRollback)
  answer (execute c.tables)

def run (s : Statement) : Action (List Event) := query s.execute

def rawEvents (filters : ByDimension Value) (o : Options) : Action (List Event) := do
  match Listing.plan filters o with
  | .error f => throw (.ofPlanFault f)
  | .ok none => pure []
  | .ok (some s) => run s

/-- The events of a listing in a time window. -/
def eventsInWindow (filters : ByDimension Value) (w : Window) (o : Options) :
    Action (List Event) :=
  rawEvents filters (w.restrict o)

def record (d : Draft) : Action Record :=
  match Record.ofDraft d with
  | .ok r => pure r
  | .error faults => throw (.record faults)

/-- The checked records of events; the first faulty event is reported. -/
def records (events : List Event) : Action (List Record) := events.mapM fun e => record e.draft

def moduleRecord (fields : List (String × Value)) : Action ModuleRecord :=
  match ModuleRecord.ofFields fields with
  | .ok r => pure r
  | .error faults => throw (.record faults)

end EventCalendar.Store
