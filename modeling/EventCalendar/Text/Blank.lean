import EventCalendar.Text.Ranges

/-!
# Blanks

The characters that count as white space at the ends of a text, and trimming. Around a number the
four separators of records do not count.
-/

set_option autoImplicit false

namespace EventCalendar.Text

/-- White space: the control characters from tab to carriage return and from file separator to the
space, the next-line control and the space separators of Unicode. -/
def blankRanges : List (Nat × Nat) := [
  (0x9, 0xD), (0x1C, 0x20), (0x85, 0x85), (0xA0, 0xA0), (0x1680, 0x1680), (0x2000, 0x200A),
  (0x2028, 0x2029), (0x202F, 0x202F), (0x205F, 0x205F), (0x3000, 0x3000)]

def isBlank (c : Char) : Bool := inRanges blankRanges c

/-- A separator of files, groups, records or units. -/
def isSeparator (c : Char) : Bool := inRanges [(0x1C, 0x1F)] c

def isNumberBlank (c : Char) : Bool := isBlank c && !isSeparator c

def isAsciiBlank (c : Char) : Bool := inRanges [(0x9, 0xD), (0x20, 0x20)] c

/-- The text without the characters at both ends that satisfy `p`. -/
def trimBy (p : Char → Bool) (s : List Char) : List Char :=
  ((s.dropWhile p).reverse.dropWhile p).reverse

def trim (s : List Char) : List Char := trimBy isBlank s

end EventCalendar.Text
