import EventCalendar.Store.Failure

/-!
# Sessions

A session sees the committed tables and its own changes on top of them until it commits or rolls
them back. A change that fails loses all uncommitted changes, and the session then refuses to work
until it is rolled back. Only one session at a time may hold uncommitted changes.
-/

set_option autoImplicit false

namespace EventCalendar.Store

/-- The state of a session. Tables may be missing. -/
structure Connection where
  committed : Option Tables
  /-- The tables with uncommitted changes, if there are any. -/
  pending : Option Tables
  /-- A change has failed and was not rolled back yet. -/
  failed : Bool
  /-- Another session holds uncommitted changes. -/
  locked : Bool

/-- What is done in a session. The state of the session outlives a failure. -/
abbrev Action (α : Type) := ExceptT Failure (StateM Connection) α

namespace Connection

def opened (tables : Option Tables) : Connection := ⟨tables, none, false, false⟩

def tables (c : Connection) : Option Tables := c.pending.or c.committed

/-- Another session on the same tables. -/
def sibling (c : Connection) : Connection :=
  ⟨c.committed, none, false, c.locked || c.pending.isSome⟩

def rolledBack (c : Connection) : Connection := { c with pending := none, failed := false }

def broken (c : Connection) : Connection := { c with pending := none, failed := true }

end Connection

variable {α : Type}

/-- Refuses to work after a failed change. -/
def requireUsable : Action Unit := do
  if (← get).failed then throw .pendingRollback

def commit : Action Unit := do
  requireUsable
  modify fun c => { c with committed := c.tables, pending := none }

def rollback : Action Unit := modify Connection.rolledBack

/-- Changes the tables in one step, which may fail. -/
def change (step : Option Tables → Except Failure (Tables × α)) : Action α := do
  requireUsable
  let c ← get
  match step c.tables with
  | .ok (t, a) =>
    set { c with pending := some t }
    pure a
  | .error f =>
    set c.broken
    throw f

/-- Ends a session: commits after a normal end, and rolls back otherwise. The result is that of the
session, or why it was not committed, with the tables that are then committed. -/
def finish (result : Except Failure α) (c : Connection) : Except Failure α × Option Tables :=
  match result with
  | .error f => (.error f, c.rolledBack.committed)
  | .ok a =>
    match (commit.run c) with
    | (.ok (), c) => (.ok a, c.committed)
    | (.error f, c) => (.error f, c.rolledBack.committed)

theorem finish_error (f : Failure) (c : Connection) :
    finish (.error f : Except Failure α) c = (.error f, c.committed) := rfl

theorem finish_ok {a : α} {c : Connection} (h : c.failed = false) :
    finish (.ok a) c = (.ok a, c.tables) := by
  obtain ⟨committed, pending, failed, locked⟩ := c
  subst h
  rfl

theorem finish_ok_of_failed {a : α} {c : Connection} (h : c.failed = true) :
    finish (.ok a) c = (.error .pendingRollback, c.committed) := by
  obtain ⟨committed, pending, failed, locked⟩ := c
  subst h
  rfl

/-- Runs a body in a session of its own and ends that session. -/
def withSession (body : Action α) (c : Connection) : Except Failure α × Connection :=
  let (result, inner) := body.run c.sibling
  let (result, committed) := finish result inner
  (result, { c with committed })

end EventCalendar.Store
