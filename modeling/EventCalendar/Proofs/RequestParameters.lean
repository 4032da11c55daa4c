import EventCalendar.Http.Router
import EventCalendar.Proofs.StatementRuns

/-!
# Reading the parameters of a request

A request for events reads its parameters one after the other, and asks the store only if it can
read them all:

* `faultOf?_read`, `read_eq_ok_iff`: what a request is read as, parameter by parameter.
* `fault?_eq_invalid`: an invalid value is reported under the name of its parameter.
* `listEvents_eq`: `listEventsBy` is the handler with any way of running statements, so that the
  statements it runs can be noted down; `respond_events` puts it behind the routes.
* `exists_recorded_listEvents`: a request runs one statement at most, and none before it is read.
* `listEvents_firstFault`: **the first parameter that cannot be read is answered**, before any
  statement is run.
-/

set_option autoImplicit false

namespace EventCalendar.Parameters

/-! ## Values of parameters -/

theorem bounded_eq_ok_iff {name : String} {least : Int} {greatest : Option Int} {m n : Int} :
    bounded name least greatest m = .ok n ↔ least ≤ m ∧ n = greatest.elim m (min m) := by
  unfold bounded
  by_cases h : m < least
  · rw [if_pos h]
    exact ⟨fun h => (by cases h), fun h' => absurd h'.1 (by omega)⟩
  · rw [if_neg h, and_iff_right (by omega), Except.ok.injEq, eq_comm]
    cases greatest <;> rfl

theorem readInt_eq_ok_iff {params : Parameters} {name : String} {default least n : Int}
    {greatest : Option Int} :
    readInt params name default greatest least = .ok n ↔
      ∃ m, (params.lookup name = none ∧ m = default ∨
          ∃ text, params.lookup name = some text ∧ Text.integer? text.toList = some m) ∧
        least ≤ m ∧ n = greatest.elim m (min m) := by
  unfold readInt
  cases hlookup : params.lookup name with
  | none => simp [bounded_eq_ok_iff]
  | some text =>
    cases hm : Text.integer? text.toList with
    | none => simp [hm]
    | some m => simp [hm, bounded_eq_ok_iff]

section
variable {params : Parameters} {name : String} {default least n : Int} {greatest : Option Int}
  (h : readInt params name default greatest least = .ok n)
include h

theorem readInt_of_missing (hnone : params.lookup name = none) :
    n = greatest.elim default (min default) := by
  obtain ⟨m, ⟨-, rfl⟩ | ⟨text, htext, -⟩, -, hn⟩ := readInt_eq_ok_iff.1 h
  · exact hn
  · rw [hnone] at htext
    cases htext

theorem readInt_of_given {text : String} (htext : params.lookup name = some text) :
    ∃ m, Text.integer? text.toList = some m ∧ least ≤ m ∧ n = greatest.elim m (min m) := by
  obtain ⟨m, ⟨hnone, -⟩ | ⟨text', htext', hm⟩, hleast, hn⟩ := readInt_eq_ok_iff.1 h
  · rw [hnone] at htext
    cases htext
  · cases htext.symm.trans htext'
    exact ⟨m, hm, hleast, hn⟩

end

variable {name reported message : String}

theorem readFilter_eq_invalid {raw : Option String}
    (h : readFilter raw name = .error (.invalid reported message)) : reported = name := by
  cases raw with
  | none => cases h
  | some raw =>
    simp only [readFilter] at h
    repeat' split at h
    all_goals cases h
    rfl

theorem readInt_eq_invalid {params : Parameters} {default least : Int} {greatest : Option Int}
    (h : readInt params name default greatest least
      = .error (.invalid reported message)) : reported = name := by
  unfold readInt bounded at h
  repeat' split at h
  all_goals cases h
  all_goals rfl

theorem readOptionalTimestamp_eq_invalid {params : Parameters}
    (h : readOptionalTimestamp params name = .error (.invalid reported message)) :
    reported = name := by
  unfold readOptionalTimestamp at h
  split at h
  · cases h
  · split at h
    · cases h
    · rename_i raw _ _
      simp only [readTimestampText] at h
      repeat' split at h
      all_goals cases h
      rfl

end EventCalendar.Parameters

namespace EventCalendar.Http

/-! ## Parameters -/

/-- A parameter that may be unreadable, by what it is for. -/
inductive RequestField
  | filter (d : Dimension)
  | order
  | offset
  | limit
  | timeStart
  | timeEnd
  deriving DecidableEq, Repr

/-- Why a value cannot be read, if it cannot. -/
def faultOf? {α : Type} : Except ParameterFault α → Option ParameterFault
  | .ok _ => none
  | .error fault => some fault

namespace RequestField

def all : List RequestField :=
  Dimension.all.map .filter ++ [.order, .offset, .limit, .timeStart, .timeEnd]

def label : RequestField → String
  | .filter d => d.name
  | .order => "orderBy"
  | .offset => "offset"
  | .limit => "limit"
  | .timeStart => "timeStart"
  | .timeEnd => "timeEnd"

/-- Why a parameter cannot be read, if it cannot; the others do not matter. -/
def fault? (params : Parameters) : RequestField → Option ParameterFault
  | .filter d => faultOf? (Parameters.readFilter (params.lookup d.name) d.name)
  | .order => faultOf? (EventsRequest.readOrder params)
  | .offset => faultOf? (Parameters.readInt params "offset" 0 none 0)
  | .limit => faultOf? (Parameters.readInt params "limit" EventsRequest.defaultLimit
      (some EventsRequest.maxLimit) 1)
  | .timeStart => faultOf? (Parameters.readOptionalTimestamp params "timeStart")
  | .timeEnd => faultOf? (Parameters.readOptionalTimestamp params "timeEnd")

/-- The first parameter that cannot be read. -/
def firstFaulty? (params : Parameters) : Option RequestField :=
  all.find? fun field => (field.fault? params).isSome

end RequestField

namespace EventsRequest

/-- What each parameter of a request is read as. -/
structure ReadFrom (params : Parameters) (r : EventsRequest) : Prop where
  filters : ∀ d : Dimension,
    Parameters.readFilter (params.lookup d.name) d.name = .ok (r.filters.get d)
  order : readOrder params = .ok r.order
  offset : Parameters.readInt params "offset" 0 none 0 = .ok r.offset
  limit : Parameters.readInt params "limit" defaultLimit (some maxLimit) 1 = .ok r.limit
  timeStart : Parameters.readOptionalTimestamp params "timeStart" = .ok r.timeStart
  timeEnd : Parameters.readOptionalTimestamp params "timeEnd" = .ok r.timeEnd
  showHidden : r.showHidden = readShowHidden params

end EventsRequest

section
variable {α β : Type}

theorem findSome?_cons_eq_or (f : α → Option β) (a : α) (xs : List α) :
    (a :: xs).findSome? f = (f a).or (xs.findSome? f) := by
  rw [List.findSome?_cons]
  cases f a <;> rfl

variable {x : Except ParameterFault α} {next : α → Except ParameterFault β}

/-- What fails first, if what comes second fails in the same way whatever it is given. -/
theorem faultOf?_bind {fault? : Option ParameterFault} (h : ∀ a, faultOf? (next a) = fault?) :
    faultOf? (x >>= next) = (faultOf? x).or fault? := by
  cases x with
  | error fault => rfl
  | ok a => exact h a

theorem faultOf?_traverse (f : Dimension → α → Except ParameterFault β) (x : ByDimension α) :
    faultOf? (x.traverse f) = Dimension.all.findSome? fun d => faultOf? (f d (x.get d)) := by
  simp only [Dimension.all, findSome?_cons_eq_or, List.findSome?_nil]
  exact faultOf?_bind fun _ => faultOf?_bind fun _ => faultOf?_bind fun _ => faultOf?_bind fun _ =>
    rfl

theorem bind_eq_ok_iff {b : β} : (x >>= next) = .ok b ↔ ∃ a, x = .ok a ∧ next a = .ok b := by
  cases x with
  | error fault => exact ⟨fun h => (by cases h), fun h => (by obtain ⟨a, h, -⟩ := h; cases h)⟩
  | ok a => exact ⟨fun h => ⟨a, rfl, h⟩, fun h => (by obtain ⟨a', h, hb⟩ := h; cases h; exact hb)⟩

end

theorem faultOf?_eq_some_iff {α : Type} {x : Except ParameterFault α} {fault : ParameterFault} :
    faultOf? x = some fault ↔ x = .error fault := by
  cases x <;> simp [faultOf?]

namespace EventsRequest

def filterTexts (params : Parameters) : ByDimension (Option String) :=
  ⟨params.lookup "users", params.lookup "groups", params.lookup "courses",
    params.lookup "categories"⟩

theorem get_filterTexts (params : Parameters) (d : Dimension) :
    (filterTexts params).get d = params.lookup d.name := by
  cases d <;> rfl

/-- **The fault of a request** is that of the first parameter that has one. -/
theorem faultOf?_read (params : Parameters) :
    faultOf? (read params) = RequestField.all.findSome? (·.fault? params) := by
  have hfilters : Dimension.all.findSome? ((·.fault? params) ∘ RequestField.filter)
      = faultOf? ((filterTexts params).traverse fun d text => Parameters.readFilter text d.name) := by
    rw [faultOf?_traverse]
    simp only [get_filterTexts]
    rfl
  rw [RequestField.all, List.findSome?_append, List.findSome?_map, hfilters]
  simp only [findSome?_cons_eq_or, List.findSome?_nil]
  exact faultOf?_bind fun _ => faultOf?_bind fun _ => faultOf?_bind fun _ => faultOf?_bind fun _ =>
    faultOf?_bind fun _ => faultOf?_bind fun _ => rfl

theorem read_eq_ok_iff {params : Parameters} {r : EventsRequest} :
    read params = .ok r ↔ r.ReadFrom params := by
  unfold read
  simp only [bind_eq_ok_iff]
  constructor
  · intro h
    obtain ⟨filters, hfilters, order, horder, offset, hoffset, limit, hlimit, timeStart, hstart,
      timeEnd, hend, hr⟩ := h
    cases hr
    refine ⟨fun d => ?_, horder, hoffset, hlimit, hstart, hend, rfl⟩
    rw [← get_filterTexts]
    exact ByDimension.traverse_eq_ok_iff.1 hfilters d
  · intro h
    obtain ⟨filters, order, offset, limit, timeStart, timeEnd, showHidden⟩ := r
    refine ⟨filters, ByDimension.traverse_eq_ok_iff.2 fun d => ?_, order, h.order, offset, h.offset,
      limit, h.limit, timeStart, h.timeStart, timeEnd, h.timeEnd, ?_⟩
    · have hd := h.filters d
      rwa [← get_filterTexts] at hd
    · rw [← h.showHidden]
      rfl

end EventsRequest

namespace EventsRequest.ReadFrom

variable {params : Parameters} {r : EventsRequest} (h : r.ReadFrom params)
include h

theorem offset_spec :
    0 ≤ r.offset ∧ (params.lookup "offset" = none → r.offset = 0) ∧
      ∀ text, params.lookup "offset" = some text → Text.integer? text.toList = some r.offset := by
  obtain ⟨m, -, hleast, hoffset⟩ := Parameters.readInt_eq_ok_iff.1 h.offset
  refine ⟨hoffset ▸ hleast, Parameters.readInt_of_missing h.offset, fun text htext => ?_⟩
  obtain ⟨m, hm, -, hoffset⟩ := Parameters.readInt_of_given h.offset htext
  rw [hoffset]
  exact hm

theorem limit_spec :
    (1 ≤ r.limit ∧ r.limit ≤ 1000) ∧ (params.lookup "limit" = none → r.limit = 50) ∧
      ∀ text, params.lookup "limit" = some text →
        ∃ n, Text.integer? text.toList = some n ∧ 1 ≤ n ∧ r.limit = min n 1000 := by
  obtain ⟨m, -, hleast, hlimit⟩ := Parameters.readInt_eq_ok_iff.1 h.limit
  replace hlimit : r.limit = min m 1000 := hlimit
  exact ⟨by omega, Parameters.readInt_of_missing h.limit,
    fun text htext => Parameters.readInt_of_given h.limit htext⟩

end EventsRequest.ReadFrom

/-- **An invalid value is reported under the name of its parameter.** -/
theorem RequestField.fault?_eq_invalid {params : Parameters} {field : RequestField}
    {name message : String} (h : field.fault? params = some (.invalid name message)) :
    name = field.label := by
  cases field with
  | filter d => exact Parameters.readFilter_eq_invalid (faultOf?_eq_some_iff.1 h)
  | order =>
    have horder := faultOf?_eq_some_iff.1 h
    unfold EventsRequest.readOrder at horder
    split at horder
    · cases horder
    · cases horder
      rfl
  | offset => exact Parameters.readInt_eq_invalid (faultOf?_eq_some_iff.1 h)
  | limit => exact Parameters.readInt_eq_invalid (faultOf?_eq_some_iff.1 h)
  | timeStart => exact Parameters.readOptionalTimestamp_eq_invalid (faultOf?_eq_some_iff.1 h)
  | timeEnd => exact Parameters.readOptionalTimestamp_eq_invalid (faultOf?_eq_some_iff.1 h)

end EventCalendar.Http

namespace EventCalendar.Store

theorem run_records (events : List Event) (c : Connection) :
    (records events).run c = ((recordsOf (events.map Event.draft)).mapError .record, c) := by
  induction events with
  | nil => rfl
  | cons e events ih =>
    have hcons : records (e :: events) = record e.draft >>= fun r => records events >>= fun rs =>
        pure (r :: rs) := List.mapM_cons ..
    rw [hcons, List.map_cons, recordsOf, List.mapM_cons, ← recordsOf]
    cases hr : Record.ofDraft e.draft with
    | error faults =>
      refine run_bind_of_error ?_
      rw [record, hr]
      rfl
    | ok r =>
      have hrecord : (record e.draft).run c = (.ok r, c) := by
        rw [record, hr]
        rfl
      rw [run_bind_of_ok hrecord]
      cases hrs : recordsOf (events.map Event.draft) with
      | error faults =>
        rw [hrs] at ih
        exact run_bind_of_error ih
      | ok rs =>
        rw [hrs] at ih
        exact run_bind_of_ok ih

end EventCalendar.Store

namespace EventCalendar.Http

open Listing (Statement Item)
open Store (Failure recording rawEventsBy run_bind_of_ok run_bind_of_error)

/-! ## The handler -/

/-- The response to what the listing of a request comes to. -/
def EventsRequest.responseTo (r : EventsRequest) : Except Failure (List Event) → Response
  | .error f => .ofFailure f
  | .ok events =>
    match recordsOf (events.map Event.draft) with
    | .error faults => .ofFailure (.record faults)
    | .ok records =>
      .ofDocument 200 (listingDocument (records.map Record.item) (some r.offset) (some r.limit))

/-- Answers a request for events, with any way of running statements. -/
def listEventsBy {σ : Type} (runs : Statement → ExceptT Failure (StateM σ) (List Event))
    (params : Parameters) : StateM σ Response :=
  match EventsRequest.read params with
  | .error fault => pure (.ofParameterFault fault)
  | .ok r => r.responseTo <$> (rawEventsBy runs r.filterValues (r.window.restrict r.options)).run

theorem run_listing {r : EventsRequest} {c : Store.Connection}
    {result : Except Failure (List Event)}
    (h : (Store.eventsInWindow r.filterValues r.window r.options).run c = (result, c)) :
    (answering r.listing).run c = (.ok (r.responseTo result), c) := by
  have hanswer : ∀ {d : Except Failure Document}, r.listing.run c = (d, c) →
      (answering r.listing).run c = (.ok (match d with
        | .ok d => .ofDocument 200 d
        | .error f => .ofFailure f), c) := by
    intro d hd
    show answering r.listing c = _
    rw [answering, hd]
    cases d <;> rfl
  cases result with
  | error f => exact hanswer (run_bind_of_error h)
  | ok events =>
    have hrecords := Store.run_records events c
    rw [EventsRequest.responseTo]
    cases hrs : recordsOf (events.map Event.draft) with
    | error faults =>
      rw [hrs] at hrecords
      exact hanswer ((run_bind_of_ok h).trans (run_bind_of_error hrecords))
    | ok rs =>
      rw [hrs] at hrecords
      exact hanswer ((run_bind_of_ok h).trans (run_bind_of_ok hrecords))

theorem listEvents_of_read {params : Parameters} {r : EventsRequest}
    (hread : EventsRequest.read params = .ok r) {c : Store.Connection}
    {result : Except Failure (List Event)}
    (h : (Store.eventsInWindow r.filterValues r.window r.options).run c = (result, c)) :
    (listEvents params).run c = (.ok (r.responseTo result), c) := by
  rw [listEvents, hread]
  exact run_listing h

/-- **The handler** answers every request, and leaves the session as it is. -/
theorem listEvents_eq (params : Parameters) (c : Store.Connection) :
    ∃ response, (listEventsBy Store.run params).run c = (response, c) ∧
      (listEvents params).run c = (.ok response, c) := by
  unfold listEventsBy
  cases hread : EventsRequest.read params with
  | error fault => exact ⟨_, rfl, by rw [listEvents, hread]; rfl⟩
  | ok r =>
    obtain ⟨result, hresult⟩ :=
      Store.exists_run_rawEvents r.filterValues (r.window.restrict r.options) c
    refine ⟨r.responseTo result, ?_, listEvents_of_read hread hresult⟩
    have hrun : (rawEventsBy Store.run r.filterValues (r.window.restrict r.options)).run c
        = (result, c) := hresult
    exact congrArg (Prod.map r.responseTo id) hrun

/-- A request for events is answered in a session of its own, which changes nothing. -/
theorem respond_events {params : Parameters} {response : Response} {c : Store.Connection}
    (h : (listEvents params).run c.sibling = (.ok response, c.sibling)) (now : Document)
    {request : Request} (hpath : request.path = "/events") (hread : request.isRead = true)
    (hparams : QueryString.parameters request.query = params) :
    respond (routes now) request c = (response, c) := by
  have hdispatch : dispatch (routes now) request = listEvents params := by
    rw [dispatch, hpath, ← hparams]
    show (if request.isRead then _ else _) = _
    rw [hread]
    rfl
  have hhealth : request.path ≠ healthPath := by
    rw [hpath]
    decide
  rw [respond, if_neg hhealth, hdispatch, Store.withSession, h]
  rfl

/-! ## The first fault -/

theorem SortKey.ofLabel?_eq_some_iff {text : String} {k : SortKey} :
    ofLabel? text = some k ↔ k.label = text := by
  constructor
  · intro h
    exact beq_iff_eq.1 (List.find?_some (p := fun k : SortKey => k.label == text) h)
  · intro h
    subst h
    cases k <;> rfl

theorem EventsRequest.readOrder_eq_ok_iff {params : Parameters} {k : SortKey} :
    readOrder params = .ok k ↔ k.label = (params.lookup "orderBy").getD "timestart" := by
  rw [← SortKey.ofLabel?_eq_some_iff, readOrder]
  cases SortKey.ofLabel? ((params.lookup "orderBy").getD "timestart") <;> simp

theorem SortKey.ofText_clause (k : SortKey) (values : Listing.NamedValues) :
    Item.ofText values k.clause = Item.plain k.clause := by
  cases k <;> rfl

theorem EventsRequest.read_of_firstFaulty? {params : Parameters} {field : RequestField}
    {fault : ParameterFault} (h : RequestField.firstFaulty? params = some field)
    (hfault : field.fault? params = some fault) : read params = .error fault := by
  rw [← faultOf?_eq_some_iff, faultOf?_read, ← hfault]
  obtain ⟨-, before, after, hall, hbefore⟩ := List.find?_eq_some_iff_append.1 h
  rw [hall, List.findSome?_append, List.findSome?_eq_none_iff.2, Option.none_or,
    List.findSome?_cons_of_isSome]
  · rw [hfault]
    rfl
  · intro other hother
    simpa using hbefore other hother

theorem EventsRequest.ReadFrom.orderItems_eq {params : Parameters} {r : EventsRequest}
    (h : r.ReadFrom params) {s : Statement} (hs : s.options = r.window.restrict r.options) :
    r.order.label = (params.lookup "orderBy").getD "timestart" ∧
      s.orderItems = Item.plain r.order.clause := by
  have horder : s.order? = some r.order.clause := by
    rw [Statement.order?, hs]
    show Option.filter _ (some r.order.clause) = _
    cases r.order <;> rfl
  rw [Statement.orderItems, horder]
  exact ⟨readOrder_eq_ok_iff.1 h.order, r.order.ofText_clause []⟩

/-- **The statements of a request.** There is at most one, and only if the request can be read. -/
theorem exists_recorded_listEvents (answer : Statement → Except Failure (List Event))
    (params : Parameters) (log : List Statement) :
    ∃ response statements,
      (listEventsBy (recording answer) params).run log = (response, log ++ statements) ∧
        statements.length ≤ 1 ∧ ∀ s ∈ statements, ∃ r : EventsRequest, r.ReadFrom params ∧
          s.options = r.window.restrict r.options := by
  unfold listEventsBy
  cases hread : EventsRequest.read params with
  | error fault => exact ⟨_, [], by rw [List.append_nil]; rfl, by simp, by simp⟩
  | ok r =>
    have hrun : ∀ {result log'}, Store.recorded answer r.filterValues
        (r.window.restrict r.options) log = (result, log') →
          StateT.run (r.responseTo <$> (rawEventsBy (recording answer) r.filterValues
            (r.window.restrict r.options)).run) log = (r.responseTo result, log') :=
      fun h => congrArg (Prod.map r.responseTo id) h
    cases hplan : Listing.plan r.filterValues (r.window.restrict r.options) with
    | error fault =>
      exact ⟨_, [], hrun (by rw [List.append_nil, Store.recorded_of_plan_error hplan]), by simp,
        by simp⟩
    | ok s? =>
      cases s? with
      | none =>
        exact ⟨_, [], hrun (by rw [List.append_nil, Store.recorded_of_plan_none hplan]), by simp,
          by simp⟩
      | some s =>
        refine ⟨_, [s], hrun (Store.recorded_of_plan_some hplan), by simp, fun s' hs' => ?_⟩
        obtain ⟨-, f, -, ⟨-, h⟩ | ⟨-, h⟩⟩ := Listing.of_plan_eq_ok hplan
        · cases h
        · cases h
          rw [List.mem_singleton.1 hs']
          exact ⟨r, EventsRequest.read_eq_ok_iff.1 hread, rfl⟩

theorem listEventsBy_of_read_error {σ : Type}
    {runs : Statement → ExceptT Failure (StateM σ) (List Event)} {params : Parameters}
    {fault : ParameterFault} (h : EventsRequest.read params = .error fault) (state : σ) :
    (listEventsBy runs params).run state = (.ofParameterFault fault, state) := by
  rw [listEventsBy, h]
  rfl

theorem listEvents_of_read_error {params : Parameters} {fault : ParameterFault}
    (h : EventsRequest.read params = .error fault) (c : Store.Connection) :
    (listEvents params).run c = (.ok (.ofParameterFault fault), c) := by
  rw [listEvents, h]
  rfl

theorem Response.ofParameterFault_invalid {name : String} (hname : name ≠ "") (message : String) :
    ofParameterFault (.invalid name message) = ofDocument 400 (errorDocument 400 message
      [("domain", .text "calendar"), ("reason", .text "invalidParameter"),
        ("message", .text message), ("location", .text name),
        ("locationType", .text "parameter")]) := by
  simp [ofParameterFault, ofError, ServiceError.document, ServiceError.detail,
    ServiceError.requestDetail, ErrorDetail.document, optionalEntry, hname]

theorem RequestField.label_ne_empty (field : RequestField) : field.label ≠ "" := by
  cases field with
  | filter d => cases d <;> decide
  | _ => decide

/-- **The first parameter that cannot be read is answered.** If its value is invalid, the status and
the code of the document are 400, and the document names the parameter; no statement has been run.
Whatever the parameters are, the statements that are run are sorted by one of the orders that a
request may ask for: the one with the name that is given, or the default. -/
theorem listEvents_firstFault (params : Parameters) :
    (∀ field name message, RequestField.firstFaulty? params = some field →
      field.fault? params = some (.invalid name message) →
      ∃ response, response = .ofDocument 400 (errorDocument 400 message
          [("domain", .text "calendar"), ("reason", .text "invalidParameter"),
            ("message", .text message), ("location", .text field.label),
            ("locationType", .text "parameter")]) ∧
        (∀ answer log, (listEventsBy (recording answer) params).run log = (response, log)) ∧
        ∀ c, (listEvents params).run c = (.ok response, c) ∧
          ∀ now request, request.path = "/events" → request.isRead = true →
            QueryString.parameters request.query = params →
              respond (routes now) request c = (response, c)) ∧
    (∀ c, ∃ response, (listEventsBy Store.run params).run c = (response, c) ∧
      (listEvents params).run c = (.ok response, c)) ∧
    ∀ answer log, ∃ response statements,
      (listEventsBy (recording answer) params).run log = (response, log ++ statements) ∧
        ∀ s ∈ statements, ∃ k : SortKey, k.label = (params.lookup "orderBy").getD "timestart" ∧
          s.orderItems = Item.plain k.clause := by
  refine ⟨fun field name message hfirst hfault => ?_, listEvents_eq params, fun answer log => ?_⟩
  · obtain rfl := RequestField.fault?_eq_invalid hfault
    have hread := EventsRequest.read_of_firstFaulty? hfirst hfault
    have hresponse := Response.ofParameterFault_invalid field.label_ne_empty message
    refine ⟨_, hresponse, fun answer log => listEventsBy_of_read_error hread log, fun c =>
      ⟨listEvents_of_read_error hread c, fun now request hpath hisRead hparams => ?_⟩⟩
    exact respond_events (listEvents_of_read_error hread _) now hpath hisRead hparams
  · obtain ⟨response, statements, hrun, -, hoptions⟩ :=
      exists_recorded_listEvents answer params log
    refine ⟨response, statements, hrun, fun s hs => ?_⟩
    obtain ⟨r, hr, hs⟩ := hoptions s hs
    exact ⟨r.order, hr.orderItems_eq hs⟩

/-- Of a limit that is no integer and a negative offset the offset is answered. -/
theorem listEvents_of_negative_offset :
    (listEvents [("limit", "x"), ("timeStart", "²"), ("offset", "-1")]).run (.opened none)
      = (.ok (.ofDocument 400 (errorDocument 400 "offset must be at least 0"
          [("domain", .text "calendar"), ("reason", .text "invalidParameter"),
            ("message", .text "offset must be at least 0"), ("location", .text "offset"),
            ("locationType", .text "parameter")])), .opened none) := by
  obtain ⟨response, rfl, -, h⟩ := (listEvents_firstFault
    [("limit", "x"), ("timeStart", "²"), ("offset", "-1")]).1 .offset "offset"
      "offset must be at least 0" (by decide) (by decide)
  exact (h (.opened none)).1

end EventCalendar.Http
