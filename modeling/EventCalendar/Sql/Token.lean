import EventCalendar.Sql.Expr
import EventCalendar.Text.Case

/-!
# Tokens

The text of a condition or an order, cut into tokens. The text comes as pieces: characters, and
slots that hold a bound value. Keywords and names do not depend on case and are kept in small
letters.
-/

set_option autoImplicit false

namespace EventCalendar.Sql

inductive Piece
  | char (c : Char)
  /-- A bound value. -/
  | slot (c : Cell)
  /-- A query without rows, which stands for an empty list. -/
  | emptyQuery
  deriving DecidableEq, Repr

inductive Symbol
  | leftParen
  | rightParen
  | comma
  | dot
  | plus
  | minus
  | comparison (op : Comparison)
  deriving DecidableEq, Repr

/-- A token of a condition or an order. -/
inductive Token
  | word (s : String)
  /-- A name in double quotes. -/
  | quoted (s : String)
  | integer (n : Nat)
  | real (x : Binary64)
  /-- A text literal; `slots` of its characters stand for bound values. -/
  | literal (s : String) (slots : Nat)
  | symbol (s : Symbol)
  | value (c : Cell)
  /-- A parameter for which no value is supplied. -/
  | parameter
  | emptyQuery
  /-- A condition that is complete in itself. -/
  | whole (e : Expr)

namespace Token

def startsName (c : Char) : Bool := c.isAlpha || c == '_' || 128 ≤ c.toNat

def continuesName (c : Char) : Bool := startsName c || c.isDigit || c == '$'

def char? : Piece → Option Char
  | .char c => some c
  | _ => none

/-- The characters at the beginning that satisfy `p`, and the rest. -/
def spanChars (p : Char → Bool) : List Piece → List Char × List Piece
  | .char c :: rest =>
    if p c then
      let (cs, rest) := spanChars p rest
      (c :: cs, rest)
    else ([], .char c :: rest)
  | rest => ([], rest)

/-- A quoted text up to its closing quote, a doubled quote standing for one; a slot within it is
the mark of a parameter. -/
def quotedText (quote : Char) : List Piece → Option (List Char × Nat × List Piece)
  | [] => none
  | .char c :: .char d :: rest =>
    if c = quote then
      if d = quote then (quotedText quote rest).map fun (cs, n, r) => (quote :: cs, n, r)
      else some ([], 0, .char d :: rest)
    else (quotedText quote (.char d :: rest)).map fun (cs, n, r) => (c :: cs, n, r)
  | .char c :: rest =>
    if c = quote then some ([], 0, rest)
    else (quotedText quote rest).map fun (cs, n, r) => (c :: cs, n, r)
  | .slot _ :: rest => (quotedText quote rest).map fun (cs, n, r) => ('?' :: cs, n + 1, r)
  | .emptyQuery :: rest => (quotedText quote rest).map fun (cs, n, r) => (cs, n, r)

/-- A number: digits, or digits with a point and an exponent, with no name attached. -/
def number? (s : List Piece) : Option (Token × List Piece) :=
  let (digits, rest) := spanChars Char.isDigit s
  let (fraction, rest) := match rest with
    | .char '.' :: more =>
      let (ds, rest) := spanChars Char.isDigit more
      ('.' :: ds, rest)
    | _ => ([], rest)
  let power := Cell.exponentStart (spanChars (fun _ => true) rest).1
  let rest := rest.drop power.length
  if (rest.head?.bind char?).any continuesName then none
  else if fraction.isEmpty && power.isEmpty then
    some (.integer (Text.ofDigits (digits.filterMap Text.asciiDigit?)), rest)
  else
    (Binary64.readUnsigned? Text.asciiDigit? false (digits ++ fraction ++ power)).map
      fun x => (.real x, rest)

/-- One or two characters that form a symbol, and how many they are. -/
def symbol? (c : Char) (next : Option Char) : Option (Symbol × Nat) :=
  if c = '(' then some (.leftParen, 1)
  else if c = ')' then some (.rightParen, 1)
  else if c = ',' then some (.comma, 1)
  else if c = '.' then some (.dot, 1)
  else if c = '+' then some (.plus, 1)
  else if c = '-' then (if next = some '-' then none else some (.minus, 1))
  else if c = '=' then some (.comparison .eq, if next = some '=' then 2 else 1)
  else if c = '<' then
    if next = some '=' then some (.comparison .le, 2)
    else if next = some '>' then some (.comparison .ne, 2)
    else some (.comparison .lt, 1)
  else if c = '>' then
    if next = some '=' then some (.comparison .ge, 2) else some (.comparison .gt, 1)
  else if c = '!' then (if next = some '=' then some (.comparison .ne, 2) else none)
  else none

/-- The token at the beginning of a text that does not begin with a blank. -/
def next? : List Piece → Option (Token × List Piece)
  | [] => none
  | .slot c :: rest => some (.value c, rest)
  | .emptyQuery :: rest => some (.emptyQuery, rest)
  | .char c :: rest =>
    if startsName c then
      let (cs, rest) := spanChars continuesName (.char c :: rest)
      some (.word (String.ofList (Text.lowered cs)), rest)
    else if c.isDigit then number? (.char c :: rest)
    else if c = Text.apostrophe then
      (quotedText c rest).map fun (cs, slots, rest) => (.literal (String.ofList cs) slots, rest)
    else if c = Text.doubleQuote then
      (quotedText c rest).map fun (cs, _, rest) => (.quoted (String.ofList (Text.lowered cs)), rest)
    else if c = '?' then some (.parameter, rest)
    else if c = ':' then
      let (cs, rest) := spanChars continuesName rest
      if cs.isEmpty then none else some (.parameter, rest)
    else if c = '.' ∧ ((rest.head?.bind char?).any Char.isDigit) then
      number? (.char c :: rest)
    else
      (symbol? c (rest.head?.bind char?)).map fun (s, n) => (.symbol s, rest.drop (n - 1))

/-- A blank between tokens. -/
def isGap : Piece → Bool
  | .char c => Cell.isSpace c
  | _ => false

/-- Cuts a text into at most `fuel` tokens. -/
def tokensUpTo : Nat → List Piece → Option (List Token)
  | fuel, s =>
    match s.dropWhile isGap with
    | [] => some []
    | rest =>
      match fuel with
      | 0 => none
      | fuel + 1 => do
        let (token, rest) ← next? rest
        let tokens ← tokensUpTo fuel rest
        pure (token :: tokens)

/-- Cuts a text into tokens. Each token takes one piece at least. -/
def ofPieces (s : List Piece) : Option (List Token) := tokensUpTo s.length s

/-- The token is a parameter for which no value is supplied, or holds a value that is supplied for
no parameter. -/
def isUnmatched : Token → Bool
  | .parameter => true
  | .literal _ slots => slots != 0
  | _ => false

end Token

end EventCalendar.Sql
