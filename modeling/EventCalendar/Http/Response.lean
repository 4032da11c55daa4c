import EventCalendar.Http.Parameters
import EventCalendar.Store.Failure

/-!
# Responses

What the service answers: a status, a body, and what the headers tell about other addresses or
methods. An error of the service is answered with its status and its document; any other failure
only shows that something went wrong.
-/

set_option autoImplicit false

namespace EventCalendar.Http

inductive Body
  | document (d : Document)
  | text (s : String)

structure Response where
  status : Int
  body : Body
  /-- Where to look instead. -/
  location : Option String
  /-- The methods that the address knows. -/
  allow : Option String

namespace Response

def ofDocument (status : Int) (d : Document) : Response := ⟨status, .document d, none, none⟩

def ofText (status : Int) (s : String) : Response := ⟨status, .text s, none, none⟩

def ofError (e : ServiceError) : Response := ofDocument e.detail.status e.document

/-- The response to a failure that is not to be shown. -/
def unexpected : Response := ofError .unexpected

def ofFailure : Store.Failure → Response
  | .service e _ => ofError e
  | _ => unexpected

/-- The response to a parameter that cannot be read. -/
def ofParameterFault : ParameterFault → Response
  | .invalid name message => ofError (.invalidParameter name message)
  | .numeral .. => unexpected

/-- The response of a handler that has no session to work in. -/
def missingSession : Response :=
  ofDocument 500 (errorDocument 500 "Missing database session"
    [("domain", .text "global"), ("reason", .text "backendError"),
      ("message", .text "Database session not available")])

/-- The response where a handler gave up. -/
def serverError : Response :=
  ofDocument 500 (.object [("detail", .text "internal server error")])

def notFound : Response := ofText 404 "Not Found"

def methodNotAllowed : Response := { ofText 405 "Method Not Allowed" with allow := some "GET, HEAD" }

def redirect (location : String) : Response := { ofText 307 "" with location := some location }

end Response

end EventCalendar.Http
