import EventCalendar.Text.Unprintable

/-!
# Quoted text

How a text or a byte string is shown inside a message. The quote is the apostrophe, unless the text
holds an apostrophe and no double quote. The quote in use and the backslash are escaped; line feed,
carriage return and tab have short escapes; an unprintable character is written by its number in
two, four or eight hexadecimal digits.
-/

set_option autoImplicit false

namespace EventCalendar.Text

def apostrophe : Char := Char.ofNat 39

def doubleQuote : Char := Char.ofNat 34

def backslash : Char := Char.ofNat 92

/-- The last `width` hexadecimal digits of `n`, in lower case. -/
def hexDigits : Nat → Nat → List Char
  | 0, _ => []
  | width + 1, n => hexDigits width (n / 16) ++ [Nat.digitChar (n % 16)]

/-- The quote around a text: the double quote only where it saves escapes. -/
def quoteFor (s : List Char) : Char :=
  if s.contains apostrophe && !s.contains doubleQuote then doubleQuote else apostrophe

/-- The short escape of a character, shared by texts and byte strings. -/
def shortEscape? (quote c : Char) : Option (List Char) :=
  if c = quote ∨ c = backslash then some [backslash, c]
  else if c = '\n' then some [backslash, 'n']
  else if c = '\r' then some [backslash, 'r']
  else if c = '\t' then some [backslash, 't']
  else none

/-- An unprintable character, by its number. -/
def numberEscape (c : Char) : List Char :=
  if c.toNat < 0x100 then backslash :: 'x' :: hexDigits 2 c.toNat
  else if c.toNat < 0x10000 then backslash :: 'u' :: hexDigits 4 c.toNat
  else backslash :: 'U' :: hexDigits 8 c.toNat

def escape (quote c : Char) : List Char :=
  (shortEscape? quote c).getD (if isUnprintable c then numberEscape c else [c])

/-- A text between quotes. -/
def quoteChars (s : List Char) : List Char :=
  quoteFor s :: (s.flatMap (escape (quoteFor s)) ++ [quoteFor s])

def quote (s : String) : String := String.ofList (quoteChars s.toList)

/-- One byte of a quoted byte string: bytes outside the printable ASCII range go by number. -/
def escapeByte (quote : Char) (b : UInt8) : List Char :=
  let c := Char.ofNat b.toNat
  (shortEscape? quote c).getD
    (if 0x20 ≤ b.toNat ∧ b.toNat < 0x7F then [c] else backslash :: 'x' :: hexDigits 2 b.toNat)

/-- A byte string between quotes, marked by a leading `b`. -/
def quoteBytes (bytes : List UInt8) : String :=
  let q := quoteFor (bytes.map fun b => Char.ofNat b.toNat)
  String.ofList ('b' :: q :: (bytes.flatMap (escapeByte q) ++ [q]))

end EventCalendar.Text
