import EventCalendar.Text.Quoted
import EventCalendar.Text.Word
import EventCalendar.Value.Basic

/-!
# Placeholders

Conditions and orders are raw text in which `:name` stands for a value. A colon begins a placeholder
if no word character, colon or backslash stands before it; the name is the whole run of word
characters after it, which must not be followed by another colon. A backslash keeps a colon from
beginning a placeholder and is dropped from the text.

The look-up of values by name is more lenient: of a name that a colon follows it takes all but the
last character. Such a name belongs to no placeholder, so a value for it is an error
(`orphanName?`).
-/

set_option autoImplicit false

namespace EventCalendar.Listing

abbrev NamedValues := List (String × Value)

/-- A piece of raw text: a character, or a placeholder. -/
inductive Fragment
  | char (c : Char)
  | slot (name : String)
  deriving DecidableEq, Repr

namespace Placeholder

/-- After this character a colon begins no placeholder. -/
def blocks (c : Char) : Bool := c == ':' || c == Text.backslash || Text.isWord c

def atColon (s : List Char) : Bool := s.head? == some ':'

/-- The name of the placeholder that a colon before `s` begins. -/
def name? (s : List Char) : Option (List Char) :=
  let run := s.takeWhile Text.isWord
  if run.isEmpty || atColon (s.drop run.length) then none else some run

/-- The name that is looked up for a colon before `s`. -/
def lookedUp? (s : List Char) : Option (List Char) :=
  let run := s.takeWhile Text.isWord
  let name := if atColon (s.drop run.length) then run.dropLast else run
  if name.isEmpty then none else some name

/-- A backslash before `s` keeps a colon from beginning a placeholder. -/
def escapes (s : List Char) : Bool :=
  match s with
  | ':' :: rest => !atColon (rest.dropWhile Text.isWord)
  | _ => false

/-- Cuts a text into fragments. The first `skip` characters belong to the placeholder before;
`blocked` tells that a colon here begins none. -/
def fragmentsFrom (blocked : Bool) (skip : Nat) : List Char → List Fragment
  | [] => []
  | c :: rest =>
    match skip with
    | skip + 1 => fragmentsFrom true skip rest
    | 0 =>
      match if c = ':' ∧ blocked = false then name? rest else none with
      | some name => .slot (String.ofList name) :: fragmentsFrom true name.length rest
      | none =>
        if c = Text.backslash ∧ escapes rest = true then fragmentsFrom true 0 rest
        else .char c :: fragmentsFrom (blocks c) 0 rest

theorem fragmentsFrom_eq_map_char {s : List Char} (h : ∀ c ∈ s, c ≠ ':' ∧ c ≠ Text.backslash)
    (blocked : Bool) : fragmentsFrom blocked 0 s = s.map .char := by
  induction s generalizing blocked with
  | nil => rfl
  | cons c rest ih =>
    obtain ⟨hc, hrest⟩ := List.forall_mem_cons.1 h
    simp [fragmentsFrom, hc.1, hc.2, ih hrest]

def fragments (s : String) : List Fragment := fragmentsFrom false 0 s.toList

/-- The names that are looked up for a text, from the same state. -/
def lookedUpFrom (blocked : Bool) (skip : Nat) : List Char → List String
  | [] => []
  | c :: rest =>
    match skip with
    | skip + 1 => lookedUpFrom true skip rest
    | 0 =>
      match if c = ':' ∧ blocked = false then lookedUp? rest else none with
      | some name => String.ofList name :: lookedUpFrom true name.length rest
      | none => lookedUpFrom (blocks c) 0 rest

/-- The names that are looked up for a text. -/
def lookedUp (s : String) : List String := lookedUpFrom false 0 s.toList

def slotName? : Fragment → Option String
  | .char _ => none
  | .slot name => some name

def names (s : String) : List String := (fragments s).filterMap slotName?

/-- The first name looked up for a text that has a value but no placeholder. -/
def orphanName? (params : NamedValues) (s : String) : Option String :=
  (lookedUp s).find? fun name => (params.lookup name).isSome && !(names s).contains name

end Placeholder

end EventCalendar.Listing
