import EventCalendar.Text.Blank
import EventCalendar.Text.Digit
import EventCalendar.Text.Quoted

/-!
# Integers in text

An integer is written as decimal digits of any script with an optional sign in front, blanks around
it, and single underscores between digits. A number of more than 4300 digits is refused, also where
something unreadable follows it.
-/

set_option autoImplicit false

namespace EventCalendar.Text

/-- Why a text is no integer. -/
inductive IntegerFault
  /-- The text does not have the form of an integer. -/
  | malformed
  /-- The text has more digits than are read. -/
  | tooLong (digits : Nat)
  deriving DecidableEq, Repr

def digitLimit : Nat := 4300

/-- The wording of a fault; `shown` is the text as the message shows it. -/
def IntegerFault.message (shown : String) : IntegerFault → String
  | .malformed =>
    "invalid literal for int() with base 10: " ++ String.ofList (shown.toList.take 200)
  | .tooLong n =>
    "Exceeds the limit (4300 digits) for integer string conversion: value has "
      ++ toString n ++ " digits; use sys.set_int_max_str_digits() to increase the limit"

/-- The values of digits grouped by single underscores. -/
def groupedDigits? (digit? : Char → Option Nat) : List Char → Option (List Nat)
  | [] => some []
  | '_' :: c :: rest => do
    let d ← digit? c
    let ds ← groupedDigits? digit? rest
    pure (d :: ds)
  | c :: rest => do
    let d ← digit? c
    let ds ← groupedDigits? digit? rest
    pure (d :: ds)

def ofDigits (digits : List Nat) : Nat := digits.foldl (fun n d => 10 * n + d) 0

/-- An optional sign and what follows it. -/
def splitSign : List Char → Bool × List Char
  | '-' :: rest => (true, rest)
  | '+' :: rest => (false, rest)
  | rest => (false, rest)

/-- A magnitude with its sign. -/
def signed (negative : Bool) (n : Nat) : Int := if negative then -(n : Int) else n

/-- Reads digits grouped by underscores at the start of a text. The digits are counted before the
rest of the text is looked at. -/
def readMagnitude (digit? : Char → Option Nat) (s : List Char) : Except IntegerFault Nat :=
  let inRun := fun c => c == '_' || (digit? c).isSome
  let run := s.takeWhile inRun
  if run.head? = some '_' then .error .malformed
  else
    match groupedDigits? digit? run with
    | none => .error .malformed
    | some ds =>
      if digitLimit < ds.length then .error (.tooLong ds.length)
      else if ds.isEmpty || !(s.dropWhile inRun).isEmpty then .error .malformed
      else .ok (ofDigits ds)

def readInteger (s : List Char) : Except IntegerFault Int :=
  let (negative, rest) := splitSign (trimBy isNumberBlank s)
  (readMagnitude digitValue? rest).map (signed negative)

/-- Reads an integer; `none` if the text is none. -/
def integer? (s : List Char) : Option Int := (readInteger s).toOption

/-- Reads an integer from a byte string: ASCII digits and blanks only. -/
def readAsciiInteger (s : List Char) : Except IntegerFault Int :=
  let (negative, rest) := splitSign (trimBy isAsciiBlank s)
  (readMagnitude asciiDigit? rest).map (signed negative)

def decimal (i : Int) : String := toString i

end EventCalendar.Text
