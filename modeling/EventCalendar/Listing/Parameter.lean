import EventCalendar.Listing.Placeholder
import EventCalendar.Text.Integer
import EventCalendar.Value.Collection

/-!
# Statement parameters

The text of a statement is a sequence of items: characters, values that get a fresh name of a stem,
and values named by the caller. `numbered` gives the fresh names: the n-th value of a stem is called
`stem_n`. A name that is given both ways, or bound both to one value and to a list, is a clash
(`clash?`). `sqlText` writes the statement, `bindings` tells what each name is bound to.
-/

set_option autoImplicit false

namespace EventCalendar.Listing

/-- What a parameter is bound to. -/
inductive Binding
  | scalar (v : Value)
  /-- A list, in whose place its items are written. -/
  | expanding (items : List Value)
  /-- There is no value for the name. -/
  | missing

def Binding.isExpanding : Binding → Bool
  | .expanding _ => true
  | _ => false

/-- The binding of a value; a collection binds its members. -/
def Binding.ofValue (v : Value) : Binding :=
  match v.members? with
  | some items => .expanding items
  | none => .scalar v

def Binding.ofName (params : NamedValues) (name : String) : Binding :=
  match params.lookup name with
  | some v => .ofValue v
  | none => .missing

/-- A piece of a statement. -/
inductive Item
  | char (c : Char)
  | fresh (stem : String) (b : Binding)
  | named (name : String) (b : Binding)

namespace Item

def plain (s : String) : List Item := s.toList.map .char

/-- Raw text, with the values of its placeholders. -/
def ofText (params : NamedValues) (s : String) : List Item :=
  (Placeholder.fragments s).map fun
    | .char c => .char c
    | .slot name => .named name (.ofName params name)

def binding? : Item → Option Binding
  | .char _ => none
  | .fresh _ b => some b
  | .named _ b => some b

end Item

/-- A named parameter; its name is generated or the caller's. -/
structure Parameter where
  name : String
  isGenerated : Bool
  binding : Binding

/-- The name of the `n`-th value of a stem. -/
def generatedName (stem : String) (n : Nat) : String := stem ++ "_" ++ Text.decimal n

/-- A piece of a statement whose parameters have names. -/
inductive Slot
  | char (c : Char)
  | parameter (p : Parameter)

namespace Slot

def text : Slot → String
  | .char c => c.toString
  | .parameter p =>
    if p.binding.isExpanding then "(__[POSTCOMPILE_" ++ p.name ++ "])" else ":" ++ p.name

def parameter? : Slot → Option Parameter
  | .char _ => none
  | .parameter p => some p

end Slot

/-- Names the parameters of items, after values of the stems `used`. -/
def numbered (used : List String) : List Item → List Slot
  | [] => []
  | .char c :: rest => .char c :: numbered used rest
  | .named name b :: rest => .parameter ⟨name, false, b⟩ :: numbered used rest
  | .fresh stem b :: rest =>
    .parameter ⟨generatedName stem (used.count stem + 1), true, b⟩ :: numbered (stem :: used) rest

def stems : List Item → List String
  | [] => []
  | .fresh stem _ :: rest => stem :: stems rest
  | _ :: rest => stems rest

theorem numbered_append (used : List String) (xs ys : List Item) :
    numbered used (xs ++ ys) = numbered used xs ++ numbered ((stems xs).reverse ++ used) ys := by
  induction xs generalizing used with
  | nil => rfl
  | cons x xs ih => cases x <;> simp [numbered, stems, ih]

theorem numbered_plain (used : List String) (s : String) :
    numbered used (Item.plain s) = s.toList.map .char := by
  simp only [Item.plain]
  induction s.toList with
  | nil => rfl
  | cons c cs ih => simp [numbered, ih]

def parametersOf (items : List Item) : List Parameter :=
  (numbered [] items).filterMap Slot.parameter?

/-- Why the parameters of a statement clash. -/
inductive ParameterClash
  /-- A generated name is used by the caller as well. -/
  | generated (name : String)
  /-- A name is bound both to one value and to a list. -/
  | expanding (name : String)
  deriving DecidableEq, Repr

def ParameterClash.message : ParameterClash → String
  | .generated name =>
    "Bind parameter '" ++ name ++ "' conflicts with unique bind parameter of the same name"
  | .expanding name =>
    "Can't reuse bound parameter name '" ++ name ++ "' in both 'expanding' (e.g. within an IN "
      ++ "expression) and non-expanding contexts.  If this parameter is to receive a list/array "
      ++ "value, set 'expanding=True' on it for expressions that aren't IN, otherwise use a "
      ++ "different parameter name."

/-- The clash of two parameters of one name. -/
def Parameter.clashWith? (p earlier : Parameter) : Option ParameterClash :=
  if earlier.isGenerated || p.isGenerated then some (.generated p.name)
  else if earlier.binding.isExpanding != p.binding.isExpanding then some (.expanding p.name)
  else none

/-- The first clash among parameters; the last parameters before them come first in `earlier`. -/
def clashAfter? (earlier : List Parameter) : List Parameter → Option ParameterClash
  | [] => none
  | p :: rest =>
    match (earlier.find? fun q => q.name == p.name).bind p.clashWith? with
    | some clash => some clash
    | none => clashAfter? (p :: earlier) rest

/-- The first clash among the parameters of items. -/
def clash? (items : List Item) : Option ParameterClash := clashAfter? [] (parametersOf items)

def sqlText (items : List Item) : String := String.join ((numbered [] items).map Slot.text)

/-- The bindings of parameters by name; the last one of a name counts. -/
def bindingsOf : List Parameter → List (String × Binding)
  | [] => []
  | p :: rest =>
    let later := bindingsOf rest
    if (later.lookup p.name).isSome then later else (p.name, p.binding) :: later

theorem mem_names_bindingsOf {name : String} {ps : List Parameter} :
    name ∈ (bindingsOf ps).map (·.1) ↔ name ∈ ps.map (·.name) := by
  induction ps with
  | nil => simp [bindingsOf]
  | cons p ps ih =>
    simp only [bindingsOf]
    split
    · rename_i h
      obtain ⟨b, hb⟩ := Option.isSome_iff_exists.1 h
      obtain ⟨l₁, l₂, hl, -⟩ := List.lookup_eq_some_iff.1 hb
      have hp : p.name ∈ (bindingsOf ps).map (·.1) := by simp [hl]
      rw [List.map_cons, List.mem_cons, ← ih]
      exact ⟨.inr, fun h => h.elim (· ▸ hp) id⟩
    · rw [List.map_cons, List.map_cons, List.mem_cons, List.mem_cons, ih]

theorem nodup_names_bindingsOf (ps : List Parameter) : ((bindingsOf ps).map (·.1)).Nodup := by
  induction ps with
  | nil => simp [bindingsOf]
  | cons p ps ih =>
    simp only [bindingsOf]
    split
    · exact ih
    · rename_i h
      refine List.nodup_cons.2 ⟨fun hp => h ?_, ih⟩
      obtain ⟨⟨name, b⟩, hmem, hname⟩ := List.mem_map.1 hp
      cases hl : (bindingsOf ps).lookup p.name with
      | some _ => rfl
      | none => exact absurd (List.lookup_eq_none_iff.1 hl _ hmem) (by simp_all)

def bindings (items : List Item) : List (String × Binding) := bindingsOf (parametersOf items)

/-- A statement as text, and what its names are bound to. -/
structure Rendered where
  sql : String
  bindings : List (String × Binding)

/-- Writes a statement, unless its parameters clash. -/
def render (items : List Item) : Except ParameterClash Rendered :=
  match clash? items with
  | some clash => .error clash
  | none => .ok ⟨sqlText items, bindings items⟩

end EventCalendar.Listing
