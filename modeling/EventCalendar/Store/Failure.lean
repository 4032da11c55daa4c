import EventCalendar.Event.Record
import EventCalendar.Listing.Execution

/-!
# Failures

Why an operation on the store fails: the caller's data is malformed, the store refuses a statement
(`StoreFault`), or a value has no form that can be stored. A listing whose statement is refused
fails with an error of the service that names the kind of the refusal.
-/

set_option autoImplicit false

namespace EventCalendar.Store

/-- The kinds of refusals by the store. -/
inductive FaultKind
  /-- A constraint of a table is violated. -/
  | integrity
  /-- The statement cannot be run. -/
  | operational
  /-- The values do not fit the statement. -/
  | programming
  /-- The statement lacks a value. -/
  | statement
  /-- The statement cannot be put into words. -/
  | compile
  /-- The session has to be rolled back first. -/
  | pendingRollback
  deriving DecidableEq, Repr

def FaultKind.name : FaultKind → String
  | .integrity => "IntegrityError"
  | .operational => "OperationalError"
  | .programming => "ProgrammingError"
  | .statement => "StatementError"
  | .compile => "CompileError"
  | .pendingRollback => "PendingRollbackError"

/-- A refusal by the store. -/
structure StoreFault where
  kind : FaultKind
  message : String
  deriving DecidableEq, Repr

/-- Why a value is no module visibility. -/
inductive VisibilityFault
  /-- A text, shown as in messages, is no integer. -/
  | numeral (fault : Text.IntegerFault) (shown : String)
  | infinite
  | notANumber
  /-- Values of this kind are no numbers. -/
  | unsupported (kind : String)
  deriving DecidableEq, Repr

def VisibilityFault.message : VisibilityFault → String
  | .numeral fault shown => fault.message shown
  | .infinite => "cannot convert float infinity to integer"
  | .notANumber => "cannot convert float NaN to integer"
  | .unsupported kind =>
    "int() argument must be a string, a bytes-like object or a real number, not '" ++ kind ++ "'"

/-- Why an operation fails. -/
inductive Failure
  /-- An error of the service, with the kind of the refusal behind it. -/
  | service (e : ServiceError) (cause : Option FaultKind)
  | store (f : StoreFault)
  /-- A value is given for a name that only looks like a placeholder. -/
  | orphan (name : String)
  /-- The fields do not describe an event. -/
  | field (f : FieldFault)
  /-- The record of an event or a module has faulty fields. -/
  | record (faults : RecordFaults)
  /-- An integer does not fit into a cell. -/
  | tooWide
  /-- Values of this kind cannot serve as ids. -/
  | unhashable (kind : String)
  | visibility (f : VisibilityFault)
  /-- The user of a session gives up. -/
  | raised (message : String)

namespace Failure

def refused (kind : FaultKind) (message : String) : Failure := .store ⟨kind, message⟩

def pendingRollback : Failure := refused .pendingRollback ""

def noTable (table : String) : Failure := refused .operational ("no such table: " ++ table)

def query (kind : FaultKind) : Failure :=
  .service (.eventQuery ("Raw event query failed: " ++ kind.name)) (some kind)

/-- The failure of binding the parameter at a position. -/
def ofBindFault (position : Nat) : Cell.BindFault → Failure
  | .tooWide => .tooWide
  | .unsupported kind =>
    refused .programming ("Error binding parameter " ++ toString position ++ ": type '" ++ kind
      ++ "' is not supported")

/-- The failure of a listing that has no statement. -/
def ofPlanFault : Listing.PlanFault → Failure
  | .service e => .service e none
  | .orphan name => .orphan name

/-- The failure of a listing whose statement does not run. An integer that is too wide is not
reported as a refusal. -/
def ofExecutionFault : Listing.ExecutionFault → Failure
  | .clash _ => query .compile
  | .unbound => query .statement
  | .unreadable => query .operational
  | .mismatched => query .programming
  | .unfit .tooWide => .tooWide
  | .unfit (.unsupported _) => query .programming

def message : Failure → String
  | .service e _ => e.message
  | .store f => f.message
  | .orphan name => (Listing.PlanFault.orphan name).message
  | .field f => f.message
  | .record _ => ""
  | .tooWide => "Python int too large to convert to SQLite INTEGER"
  | .unhashable kind => "unhashable type: '" ++ kind ++ "'"
  | .visibility f => f.message
  | .raised message => message

end Failure

end EventCalendar.Store
