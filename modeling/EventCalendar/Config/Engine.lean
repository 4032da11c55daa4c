import EventCalendar.Http.QueryString
import EventCalendar.Text.Word

/-!
# The engine of the store

How the store is reached: its URL is given or taken from the environment, which also tells whether
statements are logged. A store behind a pooler gets no pool of its own. A store in a file has a
small pool, one in memory a single connection for each thread, and any other one a large pool that
tests its connections.
-/

set_option autoImplicit false

namespace EventCalendar.Config

/-- Variables of the environment. -/
abbrev Environment := List (String × String)

inductive Pool
  /-- No connection is kept. -/
  | unpooled
  /-- One connection for each thread. -/
  | perThread
  /-- A number of connections, some more under load, and whether they are tested before use. -/
  | queue (size maxOverflow : Nat) (prePing : Bool)
  deriving DecidableEq, Repr

structure Engine where
  dialect : String
  echo : Bool
  pool : Pool
  deriving DecidableEq, Repr

/-- Why there is no engine. -/
inductive EngineFault
  /-- No URL is given, and the environment has none. -/
  | noUrl
  /-- The text is no URL. -/
  | malformed
  /-- The port is no integer. -/
  | badPort (fault : Text.IntegerFault) (text : String)
  deriving DecidableEq, Repr

def EngineFault.message : EngineFault → String
  | .noUrl => Text.quote "DATABASE_URL"
  | .malformed => "Could not parse SQLAlchemy URL from given URL string"
  | .badPort fault text => fault.message (Text.quote text)

/-! ## URLs -/

/-- The parts of a URL that matter for an engine. -/
structure StoreUrl where
  scheme : List Char
  port : List Char
  database : List Char
  query : List Char

namespace StoreUrl

/-- The text behind a user's password, if one is given. A name without a password reads as part of
the host. -/
def behindUser (s : List Char) : List Char :=
  match s.dropWhile fun c => c != ':' && c != '/' with
  | ':' :: rest =>
    match rest.dropWhile (· != '@') with
    | '@' :: rest => rest
    | _ => s
  | _ => s

def behindHost (s : List Char) : List Char := s.dropWhile fun c => !("/:?".toList.contains c)

/-- Reads what follows the scheme of a URL. -/
def readRest (scheme rest : List Char) : StoreUrl :=
  let inPort := fun c => c != '/' && c != '?'
  let (port, rest) := match behindHost (behindUser rest) with
    | ':' :: more => (more.takeWhile inPort, more.dropWhile inPort)
    | more => ([], more)
  let (database, rest) := match rest with
    | '/' :: more => (more.takeWhile (· != '?'), more.dropWhile (· != '?'))
    | more => ([], more)
  ⟨scheme, port, database, rest.drop 1⟩

/-- Reads a URL: a scheme of word characters and plus signs, `://`, and the rest. -/
def read? (s : List Char) : Option StoreUrl :=
  let inScheme := fun c => Text.isWord c || c == '+'
  let scheme := s.takeWhile inScheme
  match s.dropWhile inScheme with
  | ':' :: '/' :: '/' :: rest => if scheme.isEmpty then none else some (readRest scheme rest)
  | _ => none

def dialect (u : StoreUrl) : String := String.ofList (u.scheme.takeWhile (· != '+'))

def queryValues (u : StoreUrl) (name : String) : List String :=
  ((Http.QueryString.pairs (String.ofList u.query)).filter fun p => p.1 == name && p.2 != "").map
    (·.2)

def isFile (u : StoreUrl) : Bool :=
  !u.database.isEmpty && u.database != ":memory:".toList && u.queryValues "mode" != ["memory"]

end StoreUrl

/-! ## Engines -/

namespace Engine

/-- The URL names a pooler that keeps connections itself. -/
def hasPooler (s : List Char) : Bool :=
  Text.occursIn "-pooler".toList s || Text.occursIn "pgbouncer=true".toList s

def poolFor (text : List Char) (u : StoreUrl) : Pool :=
  if hasPooler text then .unpooled
  else if "sqlite".toList.isPrefixOf text then
    if u.isFile then .queue 5 10 false else .perThread
  else .queue 20 40 true

/-- The URL of the store: the given one, unless it is empty, or that of the environment. -/
def url? (given : Option String) (env : Environment) : Option String :=
  match given.filter (· != "") with
  | some s => some s
  | none => env.lookup "DATABASE_URL"

def echoes (env : Environment) : Bool :=
  Text.isWordIgnoringCase "true" ((env.lookup "SQL_ECHO").getD "false").toList

/-- The engine for a URL or an environment. -/
def create (given : Option String) (env : Environment) : Except EngineFault Engine := do
  let some url := url? given env | throw .noUrl
  let text := url.toList
  let some u := StoreUrl.read? text | throw .malformed
  if !u.port.isEmpty then
    match Text.readInteger u.port with
    | .ok _ => pure ()
    | .error fault => throw (.badPort fault (String.ofList u.port))
  pure ⟨u.dialect, echoes env, poolFor text u⟩

end Engine

end EventCalendar.Config
