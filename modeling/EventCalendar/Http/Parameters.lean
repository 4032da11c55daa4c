import EventCalendar.Error
import EventCalendar.Text.Case
import EventCalendar.Text.Integer
import EventCalendar.Time.Iso

/-!
# Request parameters

Reading the values of request parameters: filters, integers and timestamps. A value that cannot be
read is an error under the parameter's name (`ParameterFault.invalid`). Only a text of digits that
is no integer, or a longer one than is read, fails in a way of its own (`ParameterFault.numeral`).
-/

set_option autoImplicit false

namespace EventCalendar

/-- Why a parameter cannot be read. -/
inductive ParameterFault
  /-- The parameter has an invalid value. -/
  | invalid (name message : String)
  /-- The value is made of digits and still no integer; `text` is the value. -/
  | numeral (fault : Text.IntegerFault) (text : String)
  deriving DecidableEq, Repr

abbrev Parameters := List (String × String)

inductive IdFilter
  | none
  | all
  | ids (listed : List Int)
  deriving DecidableEq, Repr

/-- The caller value that a filter parameter stands for. -/
def IdFilter.value : IdFilter → Value
  | .none => .null
  | .all => .bool true
  | .ids listed => .list (listed.map .int)

namespace Parameters

/-! ## Filters -/

def splitCommas : List Char → List (List Char)
  | [] => [[]]
  | ',' :: rest => [] :: splitCommas rest
  | c :: rest =>
    match splitCommas rest with
    | part :: parts => (c :: part) :: parts
    | [] => [[c]]

/-- The ids of a comma-separated list; blank parts do not count. -/
def idList? (s : List Char) : Option (List Int) :=
  (((splitCommas s).map Text.trim).filter fun part => !part.isEmpty).mapM Text.integer?

/-- Reads a filter: `none` or nothing, `all`, or a list of ids. -/
def readFilter (raw : Option String) (name : String) : Except ParameterFault IdFilter :=
  match raw with
  | none => .ok .none
  | some raw =>
    let s := Text.trim raw.toList
    if s.isEmpty || Text.isWordIgnoringCase "none" s then .ok .none
    else if Text.isWordIgnoringCase "all" s then .ok .all
    else
      match idList? s with
      | some [] => .ok .none
      | some ids => .ok (.ids ids)
      | none =>
        .error (.invalid name (name ++ " must be 'all', 'none' or a comma-separated list of ids"))

/-! ## Integers -/

/-- Checks a number against its least value, then cuts it to its greatest. -/
def bounded (name : String) (least : Int) (greatest : Option Int) (n : Int) :
    Except ParameterFault Int :=
  if n < least then .error (.invalid name (name ++ " must be at least " ++ Text.decimal least))
  else .ok (match greatest with
    | some m => min n m
    | none => n)

/-- Reads an integer parameter; a missing one has the default, which is checked as well. -/
def readInt (params : Parameters) (name : String) (default : Int) (greatest : Option Int)
    (least : Int) : Except ParameterFault Int :=
  match params.lookup name with
  | none => bounded name least greatest default
  | some raw =>
    match Text.integer? raw.toList with
    | some n => bounded name least greatest n
    | none => .error (.invalid name (name ++ " must be a valid integer"))

/-! ## Timestamps -/

/-- The text is a number of epoch seconds by its characters: digits of any kind after any number of
minus signs. -/
def looksLikeSeconds (s : List Char) : Bool :=
  let digits := s.dropWhile (· == '-')
  !digits.isEmpty && digits.all Text.isDigitMark

/-- Reads a timestamp in a text: epoch seconds or an ISO date and time. -/
def readTimestampText (s : List Char) (name : String) : Except ParameterFault Int :=
  let s := Text.trim s
  if looksLikeSeconds s then
    match Text.readInteger s with
    | .ok n => .ok n
    | .error fault => .error (.numeral fault (String.ofList s))
  else
    match Time.Iso.read? s with
    | some instant => .ok (Time.epochSeconds instant)
    | none =>
      .error (.invalid name (name ++ " must be epoch seconds or an RFC3339 timestamp"))

/-- Reads a timestamp from any value: an integer is epoch seconds, a moment has them, and all else
but a truth value is read as text. -/
def readTimestamp (value : Value) (name : String) : Except ParameterFault Int :=
  match value with
  | .bool _ => .error (.invalid name (name ++ " must be a timestamp"))
  | .int n => .ok n
  | .moment t => .ok t.seconds
  | v => readTimestampText v.plain.toList name

/-- Reads a timestamp parameter that may be missing or blank. -/
def readOptionalTimestamp (params : Parameters) (name : String) :
    Except ParameterFault (Option Int) :=
  match params.lookup name with
  | none => .ok none
  | some raw =>
    if (Text.trim raw.toList).isEmpty then .ok none
    else (readTimestampText raw.toList name).map some

end Parameters

def ParameterFault.message : ParameterFault → String
  | .invalid _ message => message
  | .numeral fault text => fault.message (Text.quote text)

end EventCalendar
