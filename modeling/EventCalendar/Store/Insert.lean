import EventCalendar.Store.Connection

/-!
# Storing events

A new event is stored with the defaults of the columns that are null. Its id is the given one, or
one more than the largest stored id. Every value is converted toward the type of its column.
-/

set_option autoImplicit false

namespace EventCalendar

/-- The value of a column that is null in a new event. -/
def Column.default : Column → Value
  | .name => .text ""
  | .format => .int 0
  | .categoryid => .int 0
  | .courseid => .int 0
  | .groupid => .int 0
  | .userid => .int 0
  | .repeatid => .int 0
  | .modulename => .text "0"
  | .instance => .int 0
  | .type => .int 0
  | .eventtype => .text ""
  | .timestart => .int 0
  | .timeduration => .int 0
  | .visible => .int 1
  | .uuid => .text ""
  | .sequence => .int 1
  | .timemodified => .int 0
  | _ => .null

/-- The type toward which the values of a column are converted. -/
def Column.affinity (c : Column) : Cell.Affinity := if c.isText then .text else .numeric

/-- The draft with defaults for what is null. -/
def Draft.completed (d : Draft) : Draft :=
  ⟨fun c => if (d.value c).isNull then c.default else d.value c⟩

/-- The draft with an id, unless it has one. -/
def Draft.identified (d : Draft) (id : Int) : Draft :=
  ⟨fun c => if c = .id ∧ (d.value .id).isNull = true then .int id else d.value c⟩

mutual

/-- The kind that keeps a value from being looked up: that of a list, a set or a dictionary, or of
one in a tuple. -/
def Value.unhashable? : Value → Option String
  | .list _ => some "list"
  | .set _ => some "set"
  | .dict _ => some "dict"
  | .tuple items => Value.firstUnhashable? items
  | _ => none

/-- The kind of the first such value. -/
def Value.firstUnhashable? : List Value → Option String
  | [] => none
  | v :: rest => v.unhashable?.or (Value.firstUnhashable? rest)

end

namespace Store

def nextId : List Int → Int
  | [] => 1
  | id :: rest => rest.foldl max id + 1

theorem le_foldl_max {ids : List Int} {m i : Int} (h : i ≤ m ∨ i ∈ ids) :
    i ≤ ids.foldl max m := by
  induction ids generalizing m with
  | nil => simp_all
  | cons j ids ih =>
    refine ih ?_
    rcases h with h | h
    · exact .inl (Int.le_trans h (Int.le_max_left m j))
    · rcases List.mem_cons.1 h with rfl | h
      · exact .inl (Int.le_max_right m i)
      · exact .inr h

theorem lt_nextId {ids : List Int} {i : Int} (h : i ∈ ids) : i < nextId ids := by
  cases ids with
  | nil => simp at h
  | cons j ids =>
    have := le_foldl_max ((List.mem_cons.1 h).imp Int.le_of_eq id)
    simp only [nextId]
    omega

/-- Binds values to parameters, the first of them at a position. -/
def bindAll (position : Nat) : List Value → Except Failure (List Cell)
  | [] => .ok []
  | v :: rest =>
    match Cell.ofValue v with
    | .error f => .error (.ofBindFault position f)
    | .ok cell => (bindAll (position + 1) rest).map (cell :: ·)

/-- The values that a new event binds: its id, if it has one, and all other columns. -/
def insertedValues (d : Draft) : List Value :=
  let others := (Column.all.filter (· ≠ .id)).map d.value
  if (d.value .id).isNull then others else d.value .id :: others

/-- The cell of a column of a new event. -/
def storedCell (d : Draft) (c : Column) : Cell :=
  (((Cell.ofValue (d.value c)).toOption.getD .null).convert c.affinity)

/-- The id of a new event: the next one if none is given. -/
def storedId (d : Draft) (events : List Event) : Except Failure Int :=
  match storedCell d .id with
  | .null => .ok (nextId (events.map (·.id)))
  | .int id => .ok id
  | _ => .error (.refused .integrity "datatype mismatch")

/-- The first column of a new event that must not be null but is. -/
def missingColumn? (d : Draft) : Option Column :=
  Column.all.find? fun c => c ≠ .id && !c.isOptional && storedCell d c = .null

def insertEvent (d : Draft) (locked : Bool) (tables : Option Tables) :
    Except Failure (Tables × Int) := do
  match (d.value .id).unhashable? with
  | some kind => throw (.unhashable kind)
  | none => pure ()
  match tables with
  | none => throw (.noTable "event")
  | some t =>
    let _ ← bindAll 1 (insertedValues d)
    if locked then throw (.refused .operational "database is locked")
    let id ← storedId d t.events
    match missingColumn? d with
    | some c => throw (.refused .integrity ("NOT NULL constraint failed: event." ++ c.label))
    | none => pure ()
    if t.events.any (·.id == id) then
      throw (.refused .integrity "UNIQUE constraint failed: event.id")
    pure ({ t with events := t.events ++ [⟨id, storedCell d⟩] }, id)

/-- Creates an event from named fields. The result holds the fields as they were given, with
defaults for those that are null. -/
def createEvent (fields : List (String × Value)) : Action Draft := do
  match Draft.ofFields fields with
  | .error f => throw (.field f)
  | .ok d =>
    let d := d.completed
    let id ← change (insertEvent d (← get).locked)
    pure (d.identified id)

end Store

end EventCalendar
