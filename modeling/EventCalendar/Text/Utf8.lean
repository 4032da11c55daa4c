/-!
# UTF-8

Reading bytes as text. Where the bytes are no UTF-8, the longest start of a well-formed sequence
(or else one byte) is read as the replacement character.
-/

set_option autoImplicit false

namespace EventCalendar.Text

def replacement : Char := Char.ofNat 0xFFFD

/-- What a first byte announces: its payload and the ranges of the bytes that follow. -/
def leadByte (b : Nat) : Option (Nat × List (Nat × Nat)) :=
  if b < 0x80 then some (b, [])
  else if 0xC2 ≤ b ∧ b ≤ 0xDF then some (b - 0xC0, [(0x80, 0xBF)])
  else if b = 0xE0 then some (0, [(0xA0, 0xBF), (0x80, 0xBF)])
  else if b = 0xED then some (0xD, [(0x80, 0x9F), (0x80, 0xBF)])
  else if 0xE1 ≤ b ∧ b ≤ 0xEF then some (b - 0xE0, [(0x80, 0xBF), (0x80, 0xBF)])
  else if b = 0xF0 then some (0, [(0x90, 0xBF), (0x80, 0xBF), (0x80, 0xBF)])
  else if 0xF1 ≤ b ∧ b ≤ 0xF3 then some (b - 0xF0, [(0x80, 0xBF), (0x80, 0xBF), (0x80, 0xBF)])
  else if b = 0xF4 then some (4, [(0x80, 0x8F), (0x80, 0xBF), (0x80, 0xBF)])
  else none

/-- Where the reader stands: the payload so far and the ranges still expected. -/
abbrev Utf8State := Option (Nat × List (Nat × Nat))

/-- Takes a byte between characters. -/
def startChar (b : Nat) : List Char × Utf8State :=
  match leadByte b with
  | none => ([replacement], none)
  | some (n, []) => ([Char.ofNat n], none)
  | some state => ([], some state)

/-- Takes one byte; a byte that does not continue the sequence under way ends it as a replacement
character and starts anew. -/
def stepUtf8 : Utf8State → Nat → List Char × Utf8State
  | none, b => startChar b
  | some (_, []), b => startChar b
  | some (n, (lo, hi) :: more), b =>
    if lo ≤ b ∧ b ≤ hi then
      let n' := n * 64 + b % 64
      if more.isEmpty then ([Char.ofNat n'], none) else ([], some (n', more))
    else
      let (cs, state) := startChar b
      (replacement :: cs, state)

/-- Reads bytes as text from a state on. -/
def decodeUtf8From : Utf8State → List Nat → List Char
  | none, [] => []
  | some _, [] => [replacement]
  | state, b :: rest =>
    let (cs, state') := stepUtf8 state b
    cs ++ decodeUtf8From state' rest

/-- Reads bytes as text, with replacement characters where they are no UTF-8. -/
def decodeUtf8 (bytes : List Nat) : List Char := decodeUtf8From none bytes

/-- Reads bytes that are UTF-8 throughout. -/
def decodeUtf8? (bytes : List UInt8) : Option String :=
  String.fromUTF8? (ByteArray.mk bytes.toArray)

end EventCalendar.Text
