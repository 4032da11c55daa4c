import EventCalendar.Document
import EventCalendar.Value.Text

/-!
# Errors of the service

The errors that the service itself reports, each by its cause, with the details that its error
document shows (`ServiceError.detail`, `ErrorDetail.document`). Errors of all other kinds appear to
clients as an internal error.
-/

set_option autoImplicit false

namespace EventCalendar

inductive ServiceError
  /-- An error with all its details given. -/
  | general (message : String) (status : Int) (reason domain : String)
      (location locationType : Option String)
  /-- Invalid request data, in a field if one is given. -/
  | validation (message : String) (field : Option String) (reason : String)
  /-- The filter of a dimension is neither a truth value, an id, nor a collection of ids. -/
  | invalidFilter (dimension : String) (value : Value)
  /-- A query parameter has an invalid value. -/
  | invalidParameter (name message : String)
  /-- The store failed to run the event query. -/
  | eventQuery (message : String)
  /-- Something went wrong inside the service. -/
  | internal (message : String)

/-- What an error document shows of an error. -/
structure ErrorDetail where
  message : String
  status : Int
  reason : String
  domain : String
  location : Option String
  locationType : Option String
  deriving DecidableEq, Repr

namespace ServiceError

def invalidFilterMessage (dimension : String) (value : Value) : String :=
  "Invalid " ++ dimension ++ " filter: expected a boolean, an integer id or a collection of integer "
    ++ "ids, got " ++ value.shown

/-- Invalid request data: status 400 in the calendar's domain, located in the field if there is a
name for it. -/
def requestDetail (message : String) (field : Option String) (reason : String) : ErrorDetail :=
  { message, status := 400, reason, domain := "calendar", location := field
    locationType := match field with
      | some name => if name = "" then none else some "parameter"
      | none => none }

/-- A failure inside the service: status 500 in the global domain. -/
def serverDetail (message reason : String) : ErrorDetail :=
  { message, status := 500, reason, domain := "global", location := none, locationType := none }

def detail : ServiceError → ErrorDetail
  | .general message status reason domain location locationType =>
    { message, status, reason, domain, location, locationType }
  | .validation message field reason => requestDetail message field reason
  | .invalidFilter dimension value =>
    requestDetail (invalidFilterMessage dimension value) (some dimension) "invalidFilter"
  | .invalidParameter name message => requestDetail message (some name) "invalidParameter"
  | .eventQuery message => serverDetail message "backendError"
  | .internal message => serverDetail message "internalError"

def message (e : ServiceError) : String := e.detail.message

def isValidation : ServiceError → Bool
  | .validation .. => true
  | .invalidFilter .. => true
  | .invalidParameter .. => true
  | _ => false

/-- What a client sees of an error that is not the service's own. -/
def unexpected : ServiceError := .internal "Internal error"

end ServiceError

/-- An entry that is left out where there is no text for it. -/
def optionalEntry (name : String) : Option String → List (String × Document)
  | some s => if s = "" then [] else [(name, .text s)]
  | none => []

/-- The document of one failure with its code. -/
def errorDocument (code : Int) (message : String) (entries : List (String × Document)) : Document :=
  .object [("error", .object [("code", .int code), ("message", .text message),
    ("errors", .array [.object entries])])]

def ErrorDetail.document (d : ErrorDetail) : Document :=
  errorDocument d.status d.message
    ([("domain", .text d.domain), ("reason", .text d.reason), ("message", .text d.message)]
      ++ optionalEntry "location" d.location ++ optionalEntry "locationType" d.locationType)

def ServiceError.document (e : ServiceError) : Document := e.detail.document

/-- The text of an error that is not the service's own, given the values it was raised with: the one
value as text, or all of them in parentheses. -/
def raisedText (arguments : List Value) : String :=
  match arguments with
  | [] => ""
  | [v] => v.plain
  | vs => (Value.tuple vs).shown

/-- The same for a failed look-up, which quotes the key it looked for. -/
def lookupText (arguments : List Value) : String :=
  match arguments with
  | [v] => v.shown
  | vs => raisedText vs

end EventCalendar
