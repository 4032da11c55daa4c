import EventCalendar.Http.Response
import EventCalendar.Store.Retrieval

/-!
# The events of a calendar over HTTP

A request for events gives filters, an order, a page, a time window and whether hidden events count.
The parameters are read one after the other, and the first one that cannot be read is answered.
Nothing is looked up before all of them are read.
-/

set_option autoImplicit false

namespace EventCalendar.Http

/-- The orders that a request may ask for. -/
inductive SortKey
  | timestart
  | timestartDescending
  | timesort
  | timesortDescending
  | name
  deriving DecidableEq, Repr

namespace SortKey

def all : List SortKey := [.timesortDescending, .timestartDescending, .name, .timesort, .timestart]

def label : SortKey → String
  | .timestart => "timestart"
  | .timestartDescending => "-timestart"
  | .timesort => "timesort"
  | .timesortDescending => "-timesort"
  | .name => "name"

/-- The order as a clause of the statement. Events that are equal otherwise are ordered by id, in
the same direction. -/
def clause : SortKey → String
  | .timestart => "e.timestart ASC, e.id ASC"
  | .timestartDescending => "e.timestart DESC, e.id DESC"
  | .timesort => "e.timesort ASC, e.id ASC"
  | .timesortDescending => "e.timesort DESC, e.id DESC"
  | .name => "e.name ASC, e.id ASC"

def ofLabel? (s : String) : Option SortKey := all.find? fun k => k.label == s

end SortKey

/-- What a request for events asks for. -/
structure EventsRequest where
  filters : ByDimension IdFilter
  order : SortKey
  offset : Int
  limit : Int
  timeStart : Option Int
  timeEnd : Option Int
  showHidden : Bool

namespace EventsRequest

/-- The number of events listed unless a limit is given, and the greatest number listed at all. -/
def defaultLimit : Int := 50
def maxLimit : Int := 1000

def readOrder (params : Parameters) : Except ParameterFault SortKey :=
  match SortKey.ofLabel? ((params.lookup "orderBy").getD "timestart") with
  | some k => .ok k
  | none =>
    .error (.invalid "orderBy"
      ("orderBy must be one of " ++ ", ".intercalate (SortKey.all.map SortKey.label)))

/-- Hidden events count. -/
def readShowHidden (params : Parameters) : Bool :=
  Text.isWordIgnoringCase "true" ((params.lookup "showHidden").getD "").toList

/-- Reads a request; the first parameter that cannot be read is reported. -/
def read (params : Parameters) : Except ParameterFault EventsRequest := do
  let raw : ByDimension (Option String) := ⟨params.lookup "users", params.lookup "groups",
    params.lookup "courses", params.lookup "categories"⟩
  let filters ← raw.traverse fun d text => Parameters.readFilter text d.name
  let order ← readOrder params
  let offset ← Parameters.readInt params "offset" 0 none 0
  let limit ← Parameters.readInt params "limit" defaultLimit (some maxLimit) 1
  let timeStart ← Parameters.readOptionalTimestamp params "timeStart"
  let timeEnd ← Parameters.readOptionalTimestamp params "timeEnd"
  pure { filters, order, offset, limit, timeStart, timeEnd, showHidden := readShowHidden params }

def boundValue : Option Int → Value
  | some n => .int n
  | none => .null

def filterValues (r : EventsRequest) : ByDimension Value :=
  ⟨r.filters.users.value, r.filters.groups.value, r.filters.courses.value,
    r.filters.categories.value⟩

/-- The window of a request; running events count. -/
def window (r : EventsRequest) : Listing.Window :=
  ⟨boundValue r.timeStart, boundValue r.timeEnd, true⟩

/-- The order, the page and the visibility that a request asks for. -/
def options (r : EventsRequest) : Listing.Options :=
  { Listing.Options.default with
    order := some r.order.clause, offset := some r.offset, limit := some r.limit
    showHidden := r.showHidden }

def listing (r : EventsRequest) : Store.Action Document := do
  let events ← Store.eventsInWindow r.filterValues r.window r.options
  let records ← Store.records events
  pure (listingDocument (records.map Record.item) (some r.offset) (some r.limit))

end EventsRequest

/-- Answers with what an action yields; its failure is answered as well, and leaves the session as
the action left it. -/
def answering (action : Store.Action Document) : Store.Action Response := fun c =>
  match action.run c with
  | (.ok d, c) => (.ok (.ofDocument 200 d), c)
  | (.error f, c) => (.ok (.ofFailure f), c)

/-- Answers a request for events. -/
def listEvents (params : Parameters) : Store.Action Response :=
  match EventsRequest.read params with
  | .error f => pure (.ofParameterFault f)
  | .ok r => answering r.listing

end EventCalendar.Http
