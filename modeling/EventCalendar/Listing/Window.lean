import EventCalendar.Listing.Statement

/-!
# Time windows

The events of a time window: those that begin within its bounds, and, where durations count, those
that are still running at its start. The window is added to the conditions of a listing; values
given by the caller win over the window's own.
-/

set_option autoImplicit false

namespace EventCalendar.Listing

/-- A time window; a bound that is null is open. -/
structure Window where
  start : Value
  stop : Value
  withDuration : Bool

namespace Window

def startConditions (w : Window) : List String :=
  if w.start.isNull then []
  else if w.withDuration then
    ["(e.timestart >= :window_start OR e.timestart + e.timeduration > :window_start)"]
  else ["e.timestart >= :window_start"]

/-- The conditions for the end of a window. -/
def stopConditions (w : Window) : List String :=
  if w.stop.isNull then [] else ["e.timestart <= :window_end"]

def conditions (w : Window) : List String := w.startConditions ++ w.stopConditions

/-- The values that the conditions of a window name. -/
def params (w : Window) : NamedValues :=
  (if w.start.isNull then [] else [("window_start", w.start)])
    ++ (if w.stop.isNull then [] else [("window_end", w.stop)])

def restrict (w : Window) (o : Options) : Options :=
  { o with conditions := w.conditions ++ o.conditions, params := o.params ++ w.params }

theorem restrict_open (withDuration : Bool) (o : Options) :
    (Window.mk .null .null withDuration).restrict o = o := by
  simp [restrict, conditions, startConditions, stopConditions, params, Value.isNull]

end Window

end EventCalendar.Listing
