import EventCalendar.Decimal.Shortest
import EventCalendar.Value.Basic

/-!
# Stored values

A cell of a table holds null, a 64-bit integer, a double, a text or bytes. Cells of different kinds
are ordered null, numbers, text, bytes; numbers by their exact values, texts by their characters.
Arithmetic gives null where there is no number as the result, so that no cell is NaN; in the order
of cells NaN stands below all numbers. An affinity converts a cell toward the type of a column,
where that loses nothing. Truth has three values: a condition on null is neither true nor false.
-/

set_option autoImplicit false

namespace EventCalendar

/-- A stored value. -/
inductive Cell
  | null
  | int (i : Int)
  | real (x : Binary64)
  | text (s : String)
  | blob (bytes : List UInt8)
  deriving DecidableEq, Repr

/-- True, false, or neither. -/
abbrev Truth := Option Bool

namespace Truth

/-- Conjunction: false wins over unknown. -/
def and : Truth → Truth → Truth
  | some false, _ => some false
  | _, some false => some false
  | some true, some true => some true
  | _, _ => none

/-- Disjunction: true wins over unknown. -/
def or : Truth → Truth → Truth
  | some true, _ => some true
  | _, some true => some true
  | some false, some false => some false
  | _, _ => none

def not (t : Truth) : Truth := t.map (!·)

def holds (t : Truth) : Bool := t == some true

@[simp] theorem holds_and (a b : Truth) : (a.and b).holds = (a.holds && b.holds) := by
  rcases a with _ | _ | _ <;> rcases b with _ | _ | _ <;> rfl

@[simp] theorem holds_or (a b : Truth) : (a.or b).holds = (a.holds || b.holds) := by
  rcases a with _ | _ | _ <;> rcases b with _ | _ | _ <;> rfl

end Truth

namespace Cell

/-- The least and the greatest integer a cell holds. -/
def minInt : Int := -Int.pow 2 63
def maxInt : Int := Int.pow 2 63 - 1

def fits (i : Int) : Bool := minInt ≤ i && i ≤ maxInt

/-! ## Order -/

/-- The place of a cell's kind in the order. -/
def rank : Cell → Nat
  | .null => 0
  | .int _ => 1
  | .real _ => 1
  | .text _ => 2
  | .blob _ => 3

/-- The order of an integer and a double, by their exact values. -/
def compareIntReal (i : Int) : Binary64 → Ordering
  | .infinite negative => if negative then .gt else .lt
  | .nan => .gt
  | x => Ord.compare (i * x.denominator) x.numerator

def compareBytes : List UInt8 → List UInt8 → Ordering
  | [], [] => .eq
  | [], _ => .lt
  | _, [] => .gt
  | a :: as, b :: bs => (Ord.compare a.toNat b.toNat).then (compareBytes as bs)

/-- The order of texts, by the code points of their characters. -/
def compareChars : List Char → List Char → Ordering
  | [], [] => .eq
  | [], _ => .lt
  | _, [] => .gt
  | a :: as, b :: bs => (Ord.compare a.toNat b.toNat).then (compareChars as bs)

def compare : Cell → Cell → Ordering
  | .int a, .int b => Ord.compare a b
  | .int a, .real b => compareIntReal a b
  | .real a, .int b => (compareIntReal b a).swap
  | .real a, .real b => (a.compare? b).getD (Ord.compare (a != .nan).toNat (b != .nan).toNat)
  | .text a, .text b => compareChars a.toList b.toList
  | .blob a, .blob b => compareBytes a b
  | a, b => Ord.compare a.rank b.rank

/-! ## Numbers in text -/

/-- White space around a number in stored text. -/
def isSpace (c : Char) : Bool := Text.isAsciiBlank c

/-- The number that a whole text stands for: an integer where it is written without point and
exponent and fits, else a double. -/
def numberOfText? (s : String) : Option Cell :=
  let (negative, body) := Text.splitSign (Text.trimBy isSpace s.toList)
  if body.contains '_' then none
  else if !body.isEmpty && body.all Char.isDigit then
    let n := Text.signed negative (Text.ofDigits (body.filterMap Text.asciiDigit?))
    some (if fits n then .int n else .real (.ofInt n))
  else (Binary64.readUnsigned? Text.asciiDigit? negative body).map .real

/-- The exponent part that a text begins with, if it has digits. -/
def exponentStart (s : List Char) : List Char :=
  match s with
  | mark :: rest =>
    if mark = 'e' ∨ mark = 'E' then
      let (sign, rest) := match rest with
        | '-' :: more => (['-'], more)
        | '+' :: more => (['+'], more)
        | more => ([], more)
      let ds := rest.takeWhile Char.isDigit
      if ds.isEmpty then [] else mark :: (sign ++ ds)
    else []
  | [] => []

/-- The longest number that a text begins with; zero if there is none. -/
def numberStart (s : List Char) : Cell :=
  let s := s.dropWhile isSpace
  let (sign, s) := match s with
    | '-' :: rest => (['-'], rest)
    | '+' :: rest => (['+'], rest)
    | rest => ([], rest)
  let whole := s.takeWhile Char.isDigit
  let rest := s.dropWhile Char.isDigit
  let (fraction, rest) := match rest with
    | '.' :: more => ('.' :: more.takeWhile Char.isDigit, more.dropWhile Char.isDigit)
    | _ => ([], rest)
  if whole.isEmpty && fraction.length ≤ 1 then .int 0
  else (numberOfText? (String.ofList (sign ++ whole ++ fraction ++ exponentStart rest))).getD (.int 0)

/-- The number that a cell counts as in arithmetic and as a condition. -/
def asNumber : Cell → Cell
  | .text s => numberStart s.toList
  | .blob bytes => numberStart (bytes.map fun b => Char.ofNat b.toNat)
  | c => c

/-- The truth of a cell as a condition: numbers other than zero are true. -/
def truth (c : Cell) : Truth :=
  match c.asNumber with
  | .int i => some (i != 0)
  | .real x => some (!x.isZero)
  | _ => none

/-- The cell of a truth value. -/
def ofTruth : Truth → Cell
  | some true => .int 1
  | some false => .int 0
  | none => .null

@[simp] theorem truth_ofTruth (t : Truth) : (ofTruth t).truth = t := by
  rcases t with _ | _ | _ <;> rfl

/-! ## Arithmetic -/

/-- An integer, or the nearest double where it does not fit. -/
def ofExact (i : Int) : Cell := if fits i then .int i else .real (.ofInt i)

def toDouble : Cell → Binary64
  | .int i => .ofInt i
  | .real x => x
  | _ => .zero false

/-- The double as a cell; null where it is no number. -/
def ofDouble : Binary64 → Cell
  | .nan => .null
  | x => .real x

/-- The sum: of integers exact where it fits, else of doubles; null with null. -/
def add (a b : Cell) : Cell :=
  match a.asNumber, b.asNumber with
  | .null, _ => .null
  | _, .null => .null
  | .int a, .int b =>
    if fits (a + b) then .int (a + b) else ofDouble ((Binary64.ofInt a).add (.ofInt b))
  | a, b => ofDouble (a.toDouble.add b.toDouble)

/-- The difference: of integers exact where it fits, else of doubles; null with null. -/
def subtract (a b : Cell) : Cell :=
  match a.asNumber, b.asNumber with
  | .null, _ => .null
  | _, .null => .null
  | .int a, .int b =>
    if fits (a - b) then .int (a - b)
    else ofDouble ((Binary64.ofInt a).add (Binary64.ofInt b).negate)
  | a, b => ofDouble (a.toDouble.add b.toDouble.negate)

def negate (a : Cell) : Cell :=
  match a.asNumber with
  | .int i => ofExact (-i)
  | .real x => .real x.negate
  | c => c

/-! ## Affinity -/

/-- Toward which type a cell is converted. -/
inductive Affinity
  | numeric
  | text
  | none
  deriving DecidableEq, Repr

/-- A double that is an integer a cell holds, as that integer. -/
def wholeReal (x : Binary64) : Cell :=
  if x.isInteger && minInt < x.truncate && x.truncate < maxInt then .int x.truncate else .real x

/-- The text of a double in a text column. -/
def realText : Binary64 → String
  | .infinite negative => if negative then "-Inf" else "Inf"
  | x => x.storedText

/-- Converts a cell toward a type: texts that are numbers become numbers, numbers become texts. -/
def convert : Affinity → Cell → Cell
  | .numeric, .text s =>
    match numberOfText? s with
    | some (.real x) => wholeReal x
    | some c => c
    | .none => .text s
  | .numeric, .real x => wholeReal x
  | .text, .int i => .text (Text.decimal i)
  | .text, .real x => .text (realText x)
  | _, c => c

/-! ## Caller values -/

/-- Why a value cannot be bound to a statement. -/
inductive BindFault
  /-- The integer does not fit into a cell. -/
  | tooWide
  /-- There are no cells for values of this kind. -/
  | unsupported (kind : String)
  deriving DecidableEq, Repr

/-- The cell that a caller value is bound as. -/
def ofValue : Value → Except BindFault Cell
  | .null => .ok .null
  | .bool b => .ok (.int b.toNat)
  | .int i => if fits i then .ok (.int i) else .error .tooWide
  | .float .nan => .ok .null
  | .float x => .ok (.real x)
  | .text s => .ok (.text s)
  | .bytes bs => .ok (.blob bs)
  | .moment t => .ok (.text t.isoText)
  | v => .error (.unsupported v.kind)

/-- The caller value that a cell reads as. -/
def value : Cell → Value
  | .null => .null
  | .int i => .int i
  | .real x => .float x
  | .text s => .text s
  | .blob bs => .bytes bs

end Cell

end EventCalendar
