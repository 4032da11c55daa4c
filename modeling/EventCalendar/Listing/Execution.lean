import EventCalendar.Listing.Rows
import EventCalendar.Listing.Statement

/-!
# Executing a listing statement

Running a statement on the tables. Its raw text is read together with the text around it, since a
condition may change what the whole means. The faults come in a fixed order: clashing names, names
without values and lists of mixed kinds, unreadable text or missing tables, values that belong to no
parameter, and values that cannot be bound.

Limits of the store's resources are left out: a store takes a limited number of parameters in one
statement (32766 in its usual build), of which each id needs two, one for the best priorities and
one for the events. A listing with more is refused by the store, like one that it cannot read.
-/

set_option autoImplicit false

namespace EventCalendar.Listing

/-- Why a statement fails to run. -/
inductive ExecutionFault
  /-- The names of its parameters clash. -/
  | clash (c : ParameterClash)
  /-- A placeholder has no value, or a list holds values of another kind than its first. -/
  | unbound
  /-- The text cannot be read, or the tables are missing. -/
  | unreadable
  /-- Parameters and values do not match up. -/
  | mismatched
  /-- A value cannot be bound. -/
  | unfit (f : Cell.BindFault)
  deriving DecidableEq, Repr

/-! ## Bound values -/

/-- The truth value that a value of a list of truth values is bound as. -/
def asTruthValue? : Value → Option Value
  | .null => some .null
  | v => if v.sameNumber (.int 0) then some (.int 0)
    else if v.sameNumber (.int 1) then some (.int 1) else none

/-- The double that a value of a list of doubles is bound as. -/
def asDouble? : Value → Option Value
  | .null => some .null
  | .float x => some (.float x)
  | .text s => (Binary64.ofText? s.toList).map .float
  | v =>
    match v.integer? with
    | some i =>
      match Binary64.ofInt i with
      | .finite negative m e => some (.float (.finite negative m e))
      | _ => none
    | none => none

/-- The bytes that a value of a list of byte strings is bound as. -/
def asBytes? : Value → Option Value
  | .null => some .null
  | .bytes bs => some (.bytes bs)
  | _ => none

/-- The stored form of a moment in a list of moments. -/
def asMoment? : Value → Option Value
  | .null => some .null
  | .moment t => some (.text t.storedText)
  | _ => none

/-- The values of a list as they are bound. The first one decides on the kind. -/
def listValues? (vs : List Value) : Option (List Value) :=
  match vs with
  | .bool _ :: _ => vs.mapM asTruthValue?
  | .float _ :: _ => vs.mapM asDouble?
  | .bytes _ :: _ => vs.mapM asBytes?
  | .moment _ :: _ => vs.mapM asMoment?
  | vs => some vs

/-- The values that a binding binds, in order. -/
def Binding.values? : Binding → Option (List Value)
  | .scalar (.moment t) => some [.text t.storedText]
  | .scalar v => some [v]
  | .expanding vs => listValues? vs
  | .missing => none

/-- The values of a statement, in order. -/
def boundValues? (items : List Item) : Option (List Value) :=
  ((items.filterMap Item.binding?).mapM Binding.values?).map List.flatten

/-! ## Text -/

open Sql (Piece Token Selection)

/-- A value in the text; one that cannot be bound does not matter for the text. -/
def valuePiece (v : Value) : Piece := .slot ((Cell.ofValue v).toOption.getD .null)

def listPieces : List Value → List Piece
  | [] => []
  | [v] => [valuePiece v]
  | v :: rest => valuePiece v :: .char ',' :: listPieces rest

def Binding.pieces : Binding → List Piece
  | .scalar (.moment t) => [.slot (.text t.storedText)]
  | .scalar v => [valuePiece v]
  | .expanding vs =>
    match (listValues? vs).getD [] with
    | [] => [.char '(', .emptyQuery, .char ')']
    | vs => .char '(' :: (listPieces vs ++ [.char ')'])
  | .missing => [.char '?']

def Item.pieces : Item → List Piece
  | .char c => [.char c]
  | .fresh _ b => b.pieces
  | .named _ b => b.pieces

namespace Statement

/-- The tokens of the outer condition and the order: the rule for the module, the predicates, and
what follows them. -/
def tokens? (s : Statement) : Option (List Token) :=
  (Token.ofPieces (s.tail.flatMap Item.pieces)).map fun rest =>
    .whole moduleRule :: .word "and" :: .whole (dimensionExpr s.filters) :: rest

/-- What the statement selects by and sorts by. -/
def selection? (s : Statement) : Option Selection := s.tokens?.bind Sql.selection?

def unfit? (values : List Value) : Option Cell.BindFault :=
  values.findSome? fun v =>
    match Cell.ofValue v with
    | .ok _ => none
    | .error f => some f

def list (s : Statement) (selection : Selection) (t : Tables) : List Event :=
  cut s.offset s.limit?
    (selected s.filters s.options.showHidden selection.condition selection.order t)

/-- What comes of a statement: the first fault, or the events that are listed. -/
def outcome (clash : Option ParameterClash) (values : Option (List Value)) (tables : Option Tables)
    (tokens : Option (List Token)) (selection : Option Selection)
    (list : Selection → Tables → List Event) : Except ExecutionFault (List Event) :=
  match clash with
  | some c => .error (.clash c)
  | none =>
    match values with
    | none => .error .unbound
    | some values =>
      match tables, tokens, selection with
      | some t, some tokens, some selection =>
        if tokens.any Token.isUnmatched then .error .mismatched
        else
          match unfit? values with
          | some f => .error (.unfit f)
          | none => .ok (list selection t)
      | _, _, _ => .error .unreadable

/-- Runs the statement on tables, which may be missing. -/
def execute (s : Statement) (tables : Option Tables) : Except ExecutionFault (List Event) :=
  outcome (clash? s.items) (boundValues? s.items) tables s.tokens? s.selection? s.list

end Statement

end EventCalendar.Listing
