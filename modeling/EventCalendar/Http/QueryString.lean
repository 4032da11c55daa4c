import EventCalendar.Http.Parameters
import EventCalendar.Text.Utf8

/-!
# Query strings

A query string holds `name=value` pairs between ampersands. A plus sign is a blank, and `%xy` is the
byte with the hexadecimal number `xy`; bytes that stand side by side are read as UTF-8. Of pairs
with the same name the last one counts. `quoted` writes a text so that it may stand in a URL.
-/

set_option autoImplicit false

namespace EventCalendar.Http.QueryString

/-! ## Reading -/

def hexValue? (c : Char) : Option Nat :=
  if c.isDigit then some (c.toNat - '0'.toNat)
  else if 'a' ≤ c ∧ c ≤ 'f' then some (c.toNat - 'a'.toNat + 10)
  else if 'A' ≤ c ∧ c ≤ 'F' then some (c.toNat - 'A'.toNat + 10)
  else none

/-- The bytes of an ASCII text with percent signs; one without two digits after it stands for
itself. -/
def percentBytes : List Char → List Nat
  | '%' :: a :: b :: rest =>
    match hexValue? a, hexValue? b with
    | some x, some y => (16 * x + y) :: percentBytes rest
    | _, _ => '%'.toNat :: percentBytes (a :: b :: rest)
  | c :: rest => c.toNat :: percentBytes rest
  | [] => []

def isAscii (c : Char) : Bool := c.toNat < 128

/-- Reads the percent signs of a text, in each of its runs of ASCII characters. -/
def unquoted (s : List Char) : List Char :=
  (s.splitBy fun a b => isAscii a == isAscii b).flatMap fun run =>
    if run.any isAscii then Text.decodeUtf8 (percentBytes run) else run

def component (s : List Char) : String :=
  String.ofList (unquoted (s.map fun c => if c = '+' then ' ' else c))

/-- Reads a pair; without an equals sign its value is empty. -/
def pair (s : List Char) : String × String :=
  (component (s.takeWhile (· != '=')), component ((s.dropWhile (· != '=')).drop 1))

def parts : List Char → List (List Char)
  | [] => [[]]
  | '&' :: rest => [] :: parts rest
  | c :: rest =>
    match parts rest with
    | part :: more => (c :: part) :: more
    | [] => [[c]]

/-- The pairs of a query string, in order. -/
def pairs (s : String) : List (String × String) :=
  ((parts s.toList).filter fun part => !part.isEmpty).map pair

/-- The parameters of a query string; looking one up finds the last of its name. -/
def parameters (s : String) : Parameters := (pairs s).reverse

/-! ## Writing -/

/-- A byte that stands for itself in a URL. -/
def isUrlByte (b : UInt8) : Bool :=
  let c := Char.ofNat b.toNat
  b < 128 && (c.isAlphanum || "_.-~:/%#?=@[]!$&'()*+,;".toList.contains c)

def hexDigit (n : Nat) : Char := (Nat.digitChar n).toUpper

/-- A byte in a URL. -/
def quotedByte (b : UInt8) : List Char :=
  if isUrlByte b then [Char.ofNat b.toNat]
  else ['%', hexDigit (b.toNat / 16), hexDigit (b.toNat % 16)]

/-- A text in a URL. -/
def quoted (s : String) : String := String.ofList (s.toUTF8.toList.flatMap quotedByte)

/-- The text that the bytes of a raw query are in UTF-8; the query holds one character for each
byte. -/
def asUtf8? (raw : String) : Option String :=
  Text.decodeUtf8? (raw.toList.map fun c => UInt8.ofNat c.toNat)

end EventCalendar.Http.QueryString
