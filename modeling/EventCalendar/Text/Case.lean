/-!
# Words regardless of case

Comparison of texts with fixed ASCII words, and the capital form of a word.
-/

set_option autoImplicit false

namespace EventCalendar.Text

/-- The text in lower case, ASCII letters only. No other character has the lower-case form of a
letter of the words it is compared with. -/
def lowered (s : List Char) : List Char := s.map Char.toLower

/-- The text is `word`, in small or capital letters. -/
def isWordIgnoringCase (word : String) (s : List Char) : Bool := lowered s == word.toList

/-- The capital of a letter: ASCII letters, and the two other letters whose capital is an ASCII
letter, the dotless i and the long s. -/
def capital (c : Char) : Char :=
  if c = Char.ofNat 0x131 then 'I' else if c = Char.ofNat 0x17F then 'S' else c.toUpper

/-- `needle` occurs somewhere in `s`. -/
def occursIn (needle : List Char) : List Char → Bool
  | [] => needle.isEmpty
  | c :: rest => needle.isPrefixOf (c :: rest) || occursIn needle rest

end EventCalendar.Text
