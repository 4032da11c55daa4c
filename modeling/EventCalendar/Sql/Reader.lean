import EventCalendar.Sql.Token

/-!
# Reading conditions and orders

The grammar of conditions. From the loosest to the tightest: `OR`; `AND`; `NOT`; equality, `IS`,
`IN` and `BETWEEN`; the order comparisons; sums; signs. Operators of one level are grouped from the
left. A text that does not follow the grammar, or names an unknown or ambiguous column, cannot be
read.
-/

set_option autoImplicit false

namespace EventCalendar.Sql

/-! ## Names -/

/-- The column of a table, given by the alias of the table. -/
def qualified? (table column : String) : Option Ref :=
  if table = "e" then
    if column = "rowid" ∨ column = "oid" ∨ column = "_rowid_" then some (.event .id)
    else (Column.ofLabel? column).map .event
  else if table = "fe" then (BestColumn.ofLabel? column).map .best
  else if table = "m" then (ModuleColumn.ofLabel? column).map .module
  else none

/-- The column of that name, if just one table has it. -/
def unqualified? (column : String) : Option Ref :=
  match ["e", "fe", "m"].filterMap fun table => qualified? table column with
  | [r] => some r
  | _ => none

/-- What a word stands for as an operand: a constant or a column. -/
def wordOperand? (w : String) : Option Expr :=
  if w = "null" then some (.constant .null)
  else
    match unqualified? w with
    | some r => some (.column r)
    | none =>
      if w = "true" then some (.constant (.int 1))
      else if w = "false" then some (.constant (.int 0))
      else none

/-! ## Levels -/

/-- The levels of operators. -/
def orLevel : Nat := 1
def andLevel : Nat := 2
def equalityLevel : Nat := 4
def orderLevel : Nat := 5
def sumLevel : Nat := 6

def comparisonLevel : Comparison → Nat
  | .eq => equalityLevel
  | .ne => equalityLevel
  | _ => orderLevel

/-- A binary operator at the beginning of the tokens: its level and its meaning. -/
def binary? : Token → Option (Nat × (Expr → Expr → Expr))
  | .word "or" => some (orLevel, .or)
  | .word "and" => some (andLevel, .and)
  | .symbol (.comparison op) => some (comparisonLevel op, .compare op)
  | .symbol .plus => some (sumLevel, .add)
  | .symbol .minus => some (sumLevel, .subtract)
  | _ => none

/-- Membership in a list; a list of one empty query is an empty list. -/
def membership (e : Expr) : List Expr → Expr
  | [.emptyQuery] => .among e []
  | items => .among e items

/-- The lower of both bounds, then the upper. -/
def betweenBounds (e lo hi : Expr) : Expr := .and (.compare .ge e lo) (.compare .le e hi)

mutual

/-- Reads an expression whose operators are of level `level` or tighter. -/
def expression : Nat → Nat → List Token → Option (Expr × List Token)
  | 0, _, _ => none
  | fuel + 1, level, s => do
    let (e, rest) ← operand fuel s
    continued fuel level e rest

/-- Reads an operand: a constant, a column, an expression in parentheses, or one after a sign or
`NOT`. -/
def operand : Nat → List Token → Option (Expr × List Token)
  | 0, _ => none
  | fuel + 1, s =>
    match s with
    | .symbol .minus :: .integer n :: rest =>
      some (.constant (Cell.ofExact (-(n : Int))), rest)
    | .symbol .minus :: rest => do
      let (e, rest) ← operand fuel rest
      pure (.negate e, rest)
    | .symbol .plus :: rest => do
      let (e, rest) ← operand fuel rest
      pure (.untyped e, rest)
    | .symbol .leftParen :: rest => do
      let (e, rest) ← expression fuel orLevel rest
      match rest with
      | .symbol .rightParen :: rest => pure (e, rest)
      | _ => none
    | .word "not" :: rest => do
      let (e, rest) ← expression fuel equalityLevel rest
      pure (.not e, rest)
    | .word table :: .symbol .dot :: .word column :: rest => do
      let r ← qualified? table column
      pure (.column r, rest)
    | .word w :: rest => do
      let e ← wordOperand? w
      pure (e, rest)
    | .quoted s :: rest =>
      some (((unqualified? s).map .column).getD (.constant (.text s)), rest)
    | .integer n :: rest => some (.constant (Cell.ofExact n), rest)
    | .real x :: rest => some (.constant (.real x), rest)
    | .literal s _ :: rest => some (.constant (.text s), rest)
    | .value c :: rest => some (.constant c, rest)
    | .parameter :: rest => some (.constant .null, rest)
    | .emptyQuery :: rest => some (.emptyQuery, rest)
    | .whole e :: rest => some (e, rest)
    | _ => none

/-- Reads the operators of level `level` or tighter that follow a left operand. -/
def continued : Nat → Nat → Expr → List Token → Option (Expr × List Token)
  | 0, _, _, _ => none
  | fuel + 1, level, e, s =>
    match s with
    | .word "is" :: .word "not" :: rest =>
      if equalityLevel < level then some (e, s)
      else do
        let (b, rest) ← expression fuel orderLevel rest
        continued fuel level (.not (.is e b)) rest
    | .word "is" :: rest =>
      if equalityLevel < level then some (e, s)
      else do
        let (b, rest) ← expression fuel orderLevel rest
        continued fuel level (.is e b) rest
    | .word "isnull" :: rest =>
      if equalityLevel < level then some (e, s) else continued fuel level e.isNull rest
    | .word "notnull" :: rest =>
      if equalityLevel < level then some (e, s) else continued fuel level (.not e.isNull) rest
    | .word "not" :: .word "null" :: rest =>
      if equalityLevel < level then some (e, s) else continued fuel level (.not e.isNull) rest
    | .word "in" :: .symbol .leftParen :: rest =>
      if equalityLevel < level then some (e, s)
      else do
        let (items, rest) ← listItems fuel rest
        continued fuel level (membership e items) rest
    | .word "not" :: .word "in" :: .symbol .leftParen :: rest =>
      if equalityLevel < level then some (e, s)
      else do
        let (items, rest) ← listItems fuel rest
        continued fuel level (.not (membership e items)) rest
    | .word "between" :: rest =>
      if equalityLevel < level then some (e, s)
      else do
        let (lo, hi, rest) ← bounds fuel rest
        continued fuel level (betweenBounds e lo hi) rest
    | .word "not" :: .word "between" :: rest =>
      if equalityLevel < level then some (e, s)
      else do
        let (lo, hi, rest) ← bounds fuel rest
        continued fuel level (.not (betweenBounds e lo hi)) rest
    | token :: rest =>
      match binary? token with
      | some (own, make) =>
        if own < level then some (e, s)
        else do
          let (b, rest) ← expression fuel (own + 1) rest
          continued fuel level (make e b) rest
      | none => some (e, s)
    | [] => some (e, [])

/-- Reads the items of a list up to its closing parenthesis. -/
def listItems : Nat → List Token → Option (List Expr × List Token)
  | 0, _ => none
  | fuel + 1, s =>
    match s with
    | .symbol .rightParen :: rest => some ([], rest)
    | s => do
      let (e, rest) ← expression fuel orLevel s
      match rest with
      | .symbol .rightParen :: rest => pure ([e], rest)
      | .symbol .comma :: .symbol .rightParen :: _ => none
      | .symbol .comma :: rest => do
        let (items, rest) ← listItems fuel rest
        pure (e :: items, rest)
      | _ => none

/-- Reads two bounds with `AND` between. -/
def bounds : Nat → List Token → Option (Expr × Expr × List Token)
  | 0, _ => none
  | fuel + 1, s => do
    let (lo, rest) ← expression fuel equalityLevel s
    match rest with
    | .word "and" :: rest => do
      let (hi, rest) ← expression fuel orderLevel rest
      pure (lo, hi, rest)
    | _ => none

end

/-! ## Orders -/

/-- A key to sort by. -/
structure OrderTerm where
  key : Expr
  descending : Bool
  /-- Where nulls go, if not where their value puts them. -/
  nullsFirst : Option Bool

def direction : List Token → Bool × List Token
  | .word "asc" :: rest => (false, rest)
  | .word "desc" :: rest => (true, rest)
  | rest => (false, rest)

def nullPlace : List Token → Option Bool × List Token
  | .word "nulls" :: .word "first" :: rest => (some true, rest)
  | .word "nulls" :: .word "last" :: rest => (some false, rest)
  | rest => (none, rest)

/-- A key of an order; a plain number is the place of a column. -/
def orderKey? (fuel : Nat) (s : List Token) : Option (Expr × List Token) := do
  let (e, rest) ← expression fuel orLevel s
  match s, rest.length + 1 == s.length with
  | .integer n :: _, true =>
    match n with
    | 0 => none
    | n + 1 => (Column.all[n]?).map fun c => (.column (.event c), rest)
  | _, _ => pure (e, rest)

/-- Reads the keys of an order, to the end. -/
def orderTerms (fuel : Nat) : Nat → List Token → Option (List OrderTerm)
  | 0, _ => none
  | terms + 1, s => do
    let (key, rest) ← orderKey? fuel s
    let (descending, rest) := direction rest
    let (nullsFirst, rest) := nullPlace rest
    match rest with
    | [] => pure [⟨key, descending, nullsFirst⟩]
    | .symbol .comma :: rest => do
      let more ← orderTerms fuel terms rest
      pure (⟨key, descending, nullsFirst⟩ :: more)
    | _ => none

/-- What a statement selects by and sorts by. -/
structure Selection where
  condition : Expr
  order : List OrderTerm

/-- Reads a condition, `ORDER BY`, and the keys of an order. -/
def selection? (s : List Token) : Option Selection := do
  let fuel := 4 * s.length + 4
  let (condition, rest) ← expression fuel orLevel s
  match rest with
  | .word "order" :: .word "by" :: rest => do
    let order ← orderTerms fuel (rest.length + 1) rest
    pure ⟨condition, order⟩
  | _ => none

end EventCalendar.Sql
