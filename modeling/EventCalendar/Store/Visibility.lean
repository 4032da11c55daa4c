import EventCalendar.Store.Insert

/-!
# Module visibility

The table of modules holds one row for each module whose visibility was set. Setting it again
changes the row. The visibility is stored as an integer.
-/

set_option autoImplicit false

namespace EventCalendar.Store

/-- The integer that a value means as a visibility: a number loses its fraction, a text is read. -/
def visibility : Value → Except VisibilityFault Int
  | .bool b => .ok b.toNat
  | .int i => .ok i
  | .float (.infinite _) => .error .infinite
  | .float .nan => .error .notANumber
  | .float x => .ok x.truncate
  | .text s => (Text.readInteger s.toList).mapError fun f => .numeral f (Text.quote s)
  | .bytes bs =>
    (Text.readAsciiInteger (bs.map fun b => Char.ofNat b.toNat)).mapError
      fun f => .numeral f (Text.quoteBytes bs)
  | v => .error (.unsupported v.kind)

def findModule? (name : Cell) (t : Tables) : Option Module :=
  t.modules.find? fun m => (Expr.compareCells .eq .text .none m.name name).holds

/-- Looks up a module by the name that a caller gives. -/
def lookUpModule (name : Value) : Action (Option Module) := do
  requireUsable
  match (← get).tables with
  | none => throw (.noTable "modules")
  | some t =>
    match Cell.ofValue name with
    | .error f => throw (.ofBindFault 1 f)
    | .ok cell => pure (findModule? cell t)

/-- A module as its caller sees it. -/
structure ModuleDraft where
  id : Int
  name : Value
  visible : Int

def insertModule (name : Value) (visible : Int) (locked : Bool) (tables : Option Tables) :
    Except Failure (Tables × ModuleDraft) := do
  match tables with
  | none => throw (.noTable "modules")
  | some t =>
    let _ ← bindAll 1 [name, .int visible]
    if locked then throw (.refused .operational "database is locked")
    let cell := ((Cell.ofValue name).toOption.getD .null).convert .text
    if cell = .null then throw (.refused .integrity "NOT NULL constraint failed: modules.name")
    let id := nextId (t.modules.map (·.id))
    pure ({ t with modules := t.modules ++ [⟨id, cell, .int visible⟩] }, ⟨id, name, visible⟩)

def updateModule (m : Module) (visible : Int) (locked : Bool) (tables : Option Tables) :
    Except Failure (Tables × ModuleDraft) := do
  match tables with
  | none => throw (.noTable "modules")
  | some t =>
    let _ ← bindAll 1 [.int visible]
    if locked then throw (.refused .operational "database is locked")
    let modules := t.modules.map fun x =>
      if x.id = m.id then { x with visible := .int visible } else x
    pure ({ t with modules }, ⟨m.id, m.name.value, visible⟩)

/-- Sets the visibility of a module, which is added if it is new. -/
def setModuleVisibility (name visible : Value) : Action ModuleDraft := do
  let found ← lookUpModule name
  match visibility visible with
  | .error f => throw (.visibility f)
  | .ok n =>
    let locked := (← get).locked
    match found with
    | none => change (insertModule name n locked)
    | some m =>
      if m.visible = .int n then pure ⟨m.id, m.name.value, n⟩
      else change (updateModule m n locked)

namespace ModuleDraft

def fields (m : ModuleDraft) : List (String × Value) :=
  [("id", .int m.id), ("name", m.name), ("visible", .int m.visible)]

end ModuleDraft

end EventCalendar.Store
