import EventCalendar.Event.Row

/-!
# Expressions

The expressions that conditions and orders are made of, and their value on a row. Before two values
are compared, one of them may be converted: a value compared with a number column toward a number, a
value without type compared with a text column toward a text.
-/

set_option autoImplicit false

namespace EventCalendar

/-- A column that an expression refers to. -/
inductive Ref
  | event (c : Column)
  | best (c : BestColumn)
  | module (c : ModuleColumn)
  deriving DecidableEq, Repr

/-- The content of a column on a row; null for the module of an event without one. -/
def Ref.get (row : Row) : Ref → Cell
  | .event c => row.event.get c
  | .best c => row.best.get c
  | .module c => (row.module?.map (·.get c)).getD .null

/-- Toward which type values compared with a column are converted. A computed priority has none. -/
def Ref.affinity : Ref → Cell.Affinity
  | .event c => if c.isText then .text else .numeric
  | .best .modulename => .text
  | .best .number => .numeric
  | .best .eventtype => .text
  | .best .priority => .none
  | .module .name => .text
  | .module _ => .numeric

inductive Comparison
  | eq
  | ne
  | lt
  | le
  | gt
  | ge
  deriving DecidableEq, Repr

/-- The comparison holds for values in this order. -/
def Comparison.accepts : Comparison → Ordering → Bool
  | .eq, o => o == .eq
  | .ne, o => o != .eq
  | .lt, o => o == .lt
  | .le, o => o != .gt
  | .gt, o => o == .gt
  | .ge, o => o != .lt

inductive Expr
  | column (r : Ref)
  | constant (c : Cell)
  | add (a b : Expr)
  | subtract (a b : Expr)
  | negate (a : Expr)
  /-- The value alone, without the type of its column. -/
  | untyped (a : Expr)
  | compare (op : Comparison) (a b : Expr)
  /-- Equality that takes null for a value. -/
  | is (a b : Expr)
  | not (a : Expr)
  | and (a b : Expr)
  | or (a b : Expr)
  | among (a : Expr) (items : List Expr)
  /-- A query without rows, as a value. -/
  | emptyQuery

namespace Expr

/-- Toward which type values compared with an expression are converted. -/
def affinity : Expr → Cell.Affinity
  | .column r => r.affinity
  | _ => .none

/-- Converts the operands of a comparison as their affinities ask for. -/
def align : Cell.Affinity → Cell.Affinity → Cell → Cell → Cell × Cell
  | .numeric, .numeric, x, y => (x, y)
  | .numeric, _, x, y => (x, y.convert .numeric)
  | _, .numeric, x, y => (x.convert .numeric, y)
  | .text, .none, x, y => (x, y.convert .text)
  | .none, .text, x, y => (x.convert .text, y)
  | _, _, x, y => (x, y)

/-- Compares two values with their affinities; unknown if one of them is null. -/
def compareCells (op : Comparison) (fx fy : Cell.Affinity) (x y : Cell) : Truth :=
  match x, y with
  | .null, _ => none
  | _, .null => none
  | x, y =>
    let (x, y) := align fx fy x y
    some (op.accepts (x.compare y))

/-- Equality that takes null for a value. -/
def sameCells (fx fy : Cell.Affinity) (x y : Cell) : Bool :=
  match x, y with
  | .null, .null => true
  | x, y => (compareCells .eq fx fy x y).holds

mutual

def eval (row : Row) : Expr → Cell
  | .column r => r.get row
  | .constant c => c
  | .add a b => (eval row a).add (eval row b)
  | .subtract a b => (eval row a).subtract (eval row b)
  | .negate a => (eval row a).negate
  | .untyped a => eval row a
  | .compare op a b => .ofTruth (compareCells op a.affinity b.affinity (eval row a) (eval row b))
  | .is a b => .ofTruth (some (sameCells a.affinity b.affinity (eval row a) (eval row b)))
  | .not a => .ofTruth (eval row a).truth.not
  | .and a b => .ofTruth ((eval row a).truth.and (eval row b).truth)
  | .or a b => .ofTruth ((eval row a).truth.or (eval row b).truth)
  | .among a items => .ofTruth (isAmong row a.affinity (eval row a) items)
  | .emptyQuery => .null

/-- The value equals one of the items; unknown if it is none of them and one of them is null. -/
def isAmong (row : Row) (f : Cell.Affinity) (x : Cell) : List Expr → Truth
  | [] => some false
  | item :: rest =>
    (compareCells .eq f .none x (eval row item)).or (isAmong row f x rest)

end

def truth (row : Row) (e : Expr) : Truth := (e.eval row).truth

def holds (row : Row) (e : Expr) : Bool := (e.truth row).holds

@[simp] theorem truth_and (row : Row) (a b : Expr) :
    (Expr.and a b).truth row = (a.truth row).and (b.truth row) := by simp [truth, eval]

@[simp] theorem truth_or (row : Row) (a b : Expr) :
    (Expr.or a b).truth row = (a.truth row).or (b.truth row) := by simp [truth, eval]

@[simp] theorem truth_not (row : Row) (a : Expr) :
    (Expr.not a).truth row = (a.truth row).not := by simp [truth, eval]

@[simp] theorem truth_compare (row : Row) (op : Comparison) (a b : Expr) :
    (Expr.compare op a b).truth row
      = compareCells op a.affinity b.affinity (a.eval row) (b.eval row) := by simp [truth, eval]

/-- The conjunction of conditions; true if there are none. -/
def conjunction : List Expr → Expr
  | [] => .constant (.int 1)
  | [e] => e
  | e :: rest => .and e (conjunction rest)

/-- The disjunction of conditions; false if there are none. -/
def disjunction : List Expr → Expr
  | [] => .constant (.int 0)
  | [e] => e
  | e :: rest => .or e (disjunction rest)

def isNull (e : Expr) : Expr := .is e (.constant .null)

end Expr

end EventCalendar
