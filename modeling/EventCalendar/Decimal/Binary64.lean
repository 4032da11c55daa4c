/-!
# Double-precision numbers

A finite double is a sign, a significand below `2^53` and a power of two, `2^-1074` at least. All
arithmetic is exact integer arithmetic followed by one rounding to the nearest double, ties to the
even significand (`roundRatio`), so every statement about doubles is one about integers.
-/

set_option autoImplicit false

namespace EventCalendar

/-- A double: its bits, read as a number. A significand below `2^52` stands with the least
exponent. -/
inductive Binary64
  | finite (negative : Bool) (significand : Nat) (exponent : Int)
  | infinite (negative : Bool)
  | nan
  deriving DecidableEq, Repr

namespace Binary64

def minExponent : Int := -1074

def maxExponent : Int := 971

def zero (negative : Bool) : Binary64 := .finite negative 0 minExponent

/-- The integer nearest to `n / d`, a tie going to the even neighbour. -/
def roundHalfEven (n d : Nat) : Nat :=
  let q := n / d
  let r := n % d
  if d < 2 * r ∨ (2 * r = d ∧ q % 2 = 1) then q + 1 else q

/-- `n / d` divided by `2^e`, as a fraction. -/
def scaleDown (n d : Nat) (e : Int) : Nat × Nat :=
  if 0 ≤ e then (n, d * Nat.pow 2 e.toNat) else (n * Nat.pow 2 (-e).toNat, d)

/-- The exponent for which the significand of `n / d` has 53 bits, or the least one. -/
def exponentFor (n d : Nat) : Int :=
  let e : Int := (n.log2 : Int) - (d.log2 : Int) - 53
  let (n', d') := scaleDown n d e
  max minExponent (if n' / d' < Nat.pow 2 53 then e else e + 1)

/-- The double nearest to `n / d`, with the sign given. -/
def roundRatio (negative : Bool) (n d : Nat) : Binary64 :=
  if n = 0 then zero negative
  else
    let e := exponentFor n d
    let (n', d') := scaleDown n d e
    let m := roundHalfEven n' d'
    let (m, e) := if m = Nat.pow 2 53 then (Nat.pow 2 52, e + 1) else (m, e)
    if maxExponent < e then .infinite negative else .finite negative m e

def ofRatio (n : Int) (d : Nat) : Binary64 := roundRatio (n < 0) n.natAbs d

def ofInt (n : Int) : Binary64 := ofRatio n 1

/-- The double nearest to `digits · 10^exponent`. Exponents far beyond the range of doubles need no
power of ten. -/
def ofDecimal (negative : Bool) (digits : Nat) (exponent : Int) : Binary64 :=
  if digits = 0 then zero negative
  else if 400 < exponent then .infinite negative
  else if exponent + (Nat.toDigits 10 digits).length < -400 then zero negative
  else if 0 ≤ exponent then roundRatio negative (digits * Nat.pow 10 exponent.toNat) 1
  else roundRatio negative digits (Nat.pow 10 (-exponent).toNat)

/-- The numerator of a finite double; its sign and its magnitude times the power of two. -/
def numerator : Binary64 → Int
  | .finite negative m e =>
    let n : Nat := if 0 ≤ e then m * Nat.pow 2 e.toNat else m
    if negative then -(n : Int) else n
  | _ => 0

/-- The denominator of a finite double: a power of two. -/
def denominator : Binary64 → Nat
  | .finite _ _ e => if 0 ≤ e then 1 else Nat.pow 2 (-e).toNat
  | _ => 1

/-- The integer part: the fraction is dropped, so the result lies toward zero. -/
def truncate (x : Binary64) : Int := x.numerator.tdiv x.denominator

/-- A finite double that is an integer. -/
def isInteger : Binary64 → Bool
  | x@(.finite ..) => x.numerator % x.denominator == 0
  | _ => false

def negate : Binary64 → Binary64
  | .finite negative m e => .finite (!negative) m e
  | .infinite negative => .infinite (!negative)
  | .nan => .nan

/-- The sign of a finite or infinite double. -/
def isNegative : Binary64 → Bool
  | .finite negative _ _ => negative
  | .infinite negative => negative
  | .nan => false

/-- The order of two numbers; NaN has no place in it. -/
def compare? : Binary64 → Binary64 → Option Ordering
  | .nan, _ => none
  | _, .nan => none
  | .infinite a, .infinite b => some (compare b.toNat a.toNat)
  | .infinite a, _ => some (if a then .lt else .gt)
  | _, .infinite b => some (if b then .gt else .lt)
  | x, y => some (compare (x.numerator * y.denominator) (y.numerator * x.denominator))

/-- The sum: exact, then rounded. -/
def add : Binary64 → Binary64 → Binary64
  | .nan, _ => .nan
  | _, .nan => .nan
  | .infinite a, .infinite b => if a = b then .infinite a else .nan
  | .infinite a, _ => .infinite a
  | _, .infinite b => .infinite b
  | x, y =>
    let n := x.numerator * y.denominator + y.numerator * x.denominator
    if n = 0 then zero (x.isNegative && y.isNegative)
    else ofRatio n (x.denominator * y.denominator)

def isZero : Binary64 → Bool
  | .finite _ 0 _ => true
  | _ => false

/-- The double is the integer `i`. -/
def equalsInt : Binary64 → Int → Bool
  | x@(.finite ..), i => x.numerator == i * x.denominator
  | _, _ => false

theorem denominator_pos (x : Binary64) : 0 < x.denominator := by
  cases x with
  | finite negative m e =>
    simp only [denominator]
    split
    · exact Nat.one_pos
    · exact Nat.pow_pos (by decide)
  | infinite => exact Nat.one_pos
  | nan => exact Nat.one_pos

theorem roundHalfEven_bounds (n d : Nat) (hd : 0 < d) :
    2 * (roundHalfEven n d * d) ≤ 2 * n + d ∧ 2 * n ≤ 2 * (roundHalfEven n d * d) + d := by
  have hdiv : d * (n / d) + n % d = n := Nat.div_add_mod n d
  have hlt : n % d < d := Nat.mod_lt n hd
  simp only [roundHalfEven]
  split
  · rename_i h
    have : (n / d + 1) * d = d * (n / d) + d := by rw [Nat.add_mul, Nat.mul_comm]; omega
    omega
  · rename_i h
    have : n / d * d = d * (n / d) := Nat.mul_comm _ _
    omega

end Binary64

end EventCalendar
