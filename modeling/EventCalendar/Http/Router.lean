import EventCalendar.Http.Events
import EventCalendar.Http.QueryString

/-!
# Routing

A request goes to the handler of its path. A path with slashes at its end is redirected to the one
without, if that is known. Every request but that for the health of the service runs in a session of
its own, which is committed unless the handler gives up.
-/

set_option autoImplicit false

namespace EventCalendar.Http

/-- A request. The query holds one character for each of its bytes. -/
structure Request where
  method : String
  path : String
  query : String

def host : String := "testserver"

structure Route where
  path : String
  handle : Parameters → Store.Action Response

/-- The path that tells whether the service is up. -/
def healthPath : String := "/health"

def healthDocument (now : Document) : Document :=
  .object [("status", .text "healthy"), ("service", .text "lms-calendar"), ("time", now)]

/-- The routes of the service, at a point in time. -/
def routes (now : Document) : List Route :=
  [⟨healthPath, fun _ => pure (.ofDocument 200 (healthDocument now))⟩, ⟨"/events", listEvents⟩]

namespace Request

/-- The method is one that every route knows. -/
def isRead (r : Request) : Bool := r.method == "GET" || r.method == "HEAD"

/-- The path without slashes at its end, or with one more if it has none. -/
def otherPath (r : Request) : String :=
  let s := r.path.toList.reverse
  if s.head? == some '/' then String.ofList (s.dropWhile (· == '/')).reverse else r.path ++ "/"

/-- The address of the other path, if the query can be read. -/
def otherAddress? (r : Request) : Option String :=
  (QueryString.asUtf8? r.query).map fun query =>
    QueryString.quoted
      ("http://" ++ host ++ r.otherPath ++ (if query = "" then "" else "?" ++ query))

end Request

/-- The response where no route has the path of a request. -/
def offRoute (known : List Route) (r : Request) : Store.Action Response :=
  if r.path ≠ "/" ∧ (known.any fun route => route.path == r.otherPath) = true then
    match r.otherAddress? with
    | some address => pure (.redirect address)
    | none => throw (.raised "")
  else pure .notFound

/-- Lets the route of a request answer it. -/
def dispatch (known : List Route) (r : Request) : Store.Action Response :=
  match known.find? fun route => route.path == r.path with
  | some route =>
    if r.isRead then route.handle (QueryString.parameters r.query) else pure .methodNotAllowed
  | none => offRoute known r

/-- Answers a request beside a session on the same tables. -/
def respond (known : List Route) (r : Request) (c : Store.Connection) :
    Response × Store.Connection :=
  if r.path = healthPath then
    match (dispatch known r).run c.sibling with
    | (.ok response, _) => (response, c)
    | (.error _, _) => (.serverError, c)
  else
    match Store.withSession (dispatch known r) c with
    | (.ok response, c) => (response, c)
    | (.error _, c) => (.serverError, c)

end EventCalendar.Http
