import EventCalendar.Decimal.Binary64
import EventCalendar.Text.Integer

/-!
# Decimal text of doubles

The shortest decimal that reads back as the same double (`shortest`), the decimal of a fixed number
of digits (`rounded`), the text of a double in either form, and reading a decimal text.

A double's decimals are found on grids: for 1, 2, … 17 digits the two grid points next to the value
are tested for lying in the interval of numbers that round to the double; the first grid with a hit
wins, and of two hits the nearer one.
-/

set_option autoImplicit false

namespace EventCalendar.Binary64

/-- A decimal `digits · 10^exponent`. -/
structure Decimal where
  digits : Nat
  exponent : Int
  deriving DecidableEq, Repr

def digitCount (n : Nat) : Nat := (Nat.toDigits 10 n).length

def magnitude (x : Binary64) : Nat × Nat := (x.numerator.natAbs, x.denominator)

/-- The power of ten just above a positive fraction: `10^(p-1) ≤ n/d < 10^p`. No double is smaller
than `10^-400`. -/
def decimalPoint (n d : Nat) : Int := (digitCount (n * Nat.pow 10 400 / d) : Int) - 400

/-- `n / d` divided by `10^e`, as a fraction. -/
def scaleDecimal (n d : Nat) (e : Int) : Nat × Nat :=
  if 0 ≤ e then (n, d * Nat.pow 10 e.toNat) else (n * Nat.pow 10 (-e).toNat, d)

/-- The bounds of the interval that rounds to the double with significand `m` and exponent `e`, in
units of `2^(e-2)`. Below a power of two the neighbour is only half as far. -/
def roundingInterval (m : Nat) (e : Int) : Nat × Nat :=
  (if m = Nat.pow 2 52 ∧ minExponent < e then 4 * m - 1 else 4 * m - 2, 4 * m + 2)

/-- The decimal of `count` digits nearest to the double among those that round to it. -/
def shortestOf? (m : Nat) (e : Int) (point : Int) (count : Nat) : Option Decimal :=
  let grid : Int := point - count
  -- all quantities in units of 2^(e-2), over the common denominator `den`
  let (unitNum, unitDen) :=
    if 2 ≤ e then (Nat.pow 2 (e - 2).toNat, 1) else (1, Nat.pow 2 (2 - e).toNat)
  let (stepNum, stepDen) :=
    if 0 ≤ grid then (Nat.pow 10 grid.toNat, 1) else (1, Nat.pow 10 (-grid).toNat)
  let value := 4 * m * unitNum * stepDen
  let step := stepNum * unitDen
  let (lo, hi) := roundingInterval m e
  let low := lo * unitNum * stepDen
  let high := hi * unitNum * stepDen
  let inside := fun k => let v := k * step
    if m % 2 = 0 then decide (low ≤ v ∧ v ≤ high) else decide (low < v ∧ v < high)
  let q := value / step
  let below := value - q * step
  let above := (q + 1) * step - value
  match inside q, inside (q + 1) with
  | true, true =>
    some ⟨if below < above ∨ (below = above ∧ q % 2 = 0) then q else q + 1, grid⟩
  | true, false => some ⟨q, grid⟩
  | false, true => some ⟨q + 1, grid⟩
  | false, false => none

/-- The decimal without trailing zeros in its digits. -/
def Decimal.normalize : Nat → Decimal → Decimal
  | 0, x => x
  | fuel + 1, x =>
    if x.digits % 10 = 0 ∧ x.digits ≠ 0 then Decimal.normalize fuel ⟨x.digits / 10, x.exponent + 1⟩
    else x

/-- The shortest decimal that rounds to the positive double `m · 2^e`. -/
def shortest (m : Nat) (e : Int) : Decimal :=
  let (n, d) := magnitude (.finite false m e)
  let point := decimalPoint n d
  let found := (List.range 17).findSome? fun k => shortestOf? m e point (k + 1)
  (found.getD ⟨m, 0⟩).normalize 20

/-- The decimal of `count` digits nearest to the fraction `n / d`. -/
def rounded (count n d : Nat) : Decimal :=
  let grid : Int := decimalPoint n d - count
  let (n', d') := scaleDecimal n d grid
  (Decimal.mk (roundHalfEven n' d') grid).normalize (count + 1)

/-- How a decimal is laid out: exponents of ten from `least` up to `most`, exclusive, are written
with a point, all others with an exponent of two digits at least. -/
structure Layout where
  least : Int
  most : Int
  /-- A fraction follows the first digit even before an exponent. -/
  pointed : Bool

/-- Numbers in messages: positional from `10^-4` up to below `10^16`. -/
def messageLayout : Layout := ⟨-4, 16, false⟩

/-- Numbers turned into stored text: positional from `10^-4` up to below `10^15`. -/
def storedLayout : Layout := ⟨-4, 15, true⟩

def digitChars (n : Nat) : List Char := Nat.toDigits 10 n

/-- An exponent: its sign and two digits at least. -/
def exponentChars (e : Int) : List Char :=
  let ds := digitChars e.natAbs
  'e' :: (if e < 0 then '-' else '+') :: (if ds.length < 2 then '0' :: ds else ds)

/-- A positive decimal, laid out; a point and a fraction are always written in positional form. -/
def Decimal.chars (layout : Layout) (x : Decimal) : List Char :=
  let ds := digitChars x.digits
  let scale : Int := x.exponent + ds.length - 1
  if layout.least ≤ scale ∧ scale < layout.most then
    if 0 ≤ x.exponent then ds ++ List.replicate x.exponent.toNat '0' ++ ['.', '0']
    else if 0 ≤ scale then
      let whole := scale.toNat + 1
      ds.take whole ++ '.' :: ds.drop whole
    else '0' :: '.' :: (List.replicate (-scale - 1).toNat '0' ++ ds)
  else
    let fraction := ds.drop 1
    let body := if fraction.isEmpty then (if layout.pointed then ['.', '0'] else [])
      else '.' :: fraction
    ds.take 1 ++ body ++ exponentChars scale

/-- The text of a double, given the decimal of its magnitude. -/
def charsWith (layout : Layout) (decimalOf : Nat → Int → Decimal) : Binary64 → List Char
  | .nan => ['n', 'a', 'n']
  | .infinite negative => if negative then ['-', 'i', 'n', 'f'] else ['i', 'n', 'f']
  | .finite negative m e =>
    let body := if m = 0 then ['0', '.', '0'] else (decimalOf m e).chars layout
    if negative then '-' :: body else body

/-- The text of a double in messages: its shortest decimal. -/
def text (x : Binary64) : String := String.ofList (charsWith messageLayout shortest x)

/-- The text of a double in a text column: its decimal of fifteen digits. Zero has no sign there. -/
def storedText (x : Binary64) : String :=
  String.ofList (charsWith storedLayout
    (fun m e => let (n, d) := magnitude (.finite false m e); rounded 15 n d)
    (if x.isZero then .zero false else x))

/-! ## Reading -/

/-- An exponent part: nothing, or a mark, a sign and digits to the end. -/
def readExponent? (digit? : Char → Option Nat) : List Char → Option Int
  | [] => some 0
  | c :: rest =>
    if c = 'e' ∨ c = 'E' then
      let (negative, ds) := Text.splitSign rest
      if ds.isEmpty ∨ ds.head? = some '_' then none
      else (Text.groupedDigits? digit? ds).map fun ds => Text.signed negative (Text.ofDigits ds)
    else none

/-- Reads an unsigned decimal: digits with a point somewhere and an exponent, and at least one digit
beside the point. -/
def readUnsigned? (digit? : Char → Option Nat) (negative : Bool) (s : List Char) :
    Option Binary64 := do
  let inRun := fun c => c == '_' || (digit? c).isSome
  let whole := s.takeWhile inRun
  let rest := s.dropWhile inRun
  let (fraction, rest) := match rest with
    | '.' :: more => (more.takeWhile inRun, more.dropWhile inRun)
    | _ => ([], rest)
  if whole.head? = some '_' ∨ fraction.head? = some '_' then none
  else if whole.isEmpty ∧ fraction.isEmpty then none
  else
    let ws ← Text.groupedDigits? digit? whole
    let fs ← Text.groupedDigits? digit? fraction
    let e ← readExponent? digit? rest
    pure (ofDecimal negative (Text.ofDigits (ws ++ fs)) (e - fs.length))

/-- Reads a decimal text with digits of any script, an infinity or NaN, blanks around it. -/
def ofText? (s : List Char) : Option Binary64 :=
  let (negative, rest) := Text.splitSign (Text.trimBy Text.isNumberBlank s)
  let word := rest.map Char.toLower
  if word = ['i', 'n', 'f'] ∨ word = ['i', 'n', 'f', 'i', 'n', 'i', 't', 'y'] then
    some (.infinite negative)
  else if word = ['n', 'a', 'n'] then some .nan
  else readUnsigned? Text.digitValue? negative rest

end EventCalendar.Binary64
