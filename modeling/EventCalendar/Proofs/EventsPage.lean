import EventCalendar.Proofs.ListingFailures
import EventCalendar.Proofs.Paging

/-!
# Pages of a request

A request for events that is answered with events shows one page of them, which is cut out of all
events that it asks for:

* `exists_run_unpaged`: if a listing with a page lists events, so does the listing without it.
* `forall₂_recordsOf`: there is one record for each event, in the same order.
* `limit?_eq`: a request cannot ask for a page without a limit.
* `listEvents_page`: **the page of a request**.
-/

set_option autoImplicit false

namespace EventCalendar

namespace Listing

theorem exists_execute_unpaged {f : Filters} {o : Options} (hconditions : o.conditions = [])
    {start stop : Option Int}
    (hnamed : ∀ name n, Window.Binds start stop name n → o.params.lookup name = none)
    {withDuration : Bool} {tables : Option Tables} {events : List Event}
    (h : (windowStatement f o start stop withDuration).execute tables = .ok events) :
    ∃ all, (windowStatement f (o.paged none none) start stop withDuration).execute tables = .ok all ∧
      events = cut (o.offset.getD 0) (o.limit.filter (· != 0)) all := by
  obtain ⟨order, hreads⟩ :=
    Statement.reads_of_execute (window_conditions_read hconditions hnamed) h
  obtain ⟨-, -, t, -, -, rfl, -⟩ := Statement.execute_eq_ok_iff.1 h
  exact hreads.exists_execute_unpaged h

end Listing

namespace Store

open Listing

/-- **A listing with a page** that lists events lists a cut of what there is without one. -/
theorem exists_run_unpaged {values : ByDimension Value} {o : Options}
    (hconditions : o.conditions = []) {start stop : Option Int}
    (hnamed : ∀ name n, Window.Binds start stop name n → o.params.lookup name = none)
    {withDuration : Bool} {c : Connection} {events : List Event}
    (h : (eventsInWindow values (.between start stop withDuration) o).run c = (.ok events, c)) :
    ∃ all, (eventsInWindow values (.between start stop withDuration) (o.paged none none)).run c
        = (.ok all, c) ∧ events = cut (o.offset.getD 0) (o.limit.filter (· != 0)) all := by
  have hcheck := checkPage_window (o := o.paged none none) rfl rfl
    (.between start stop withDuration)
  unfold eventsInWindow rawEvents at h
  cases hplan : plan values ((Window.between start stop withDuration).restrict o) with
  | error fault =>
    rw [hplan] at h
    cases h
  | ok s? =>
    rw [hplan] at h
    obtain ⟨-, f, hf, ⟨hnone, rfl⟩ | ⟨hactive, rfl⟩⟩ := of_plan_eq_ok hplan
    · cases h
      refine ⟨[], ?_, (cut_nil _ _).symm⟩
      rw [eventsInWindow_of_allNone hf rfl rfl hnone]
      rfl
    · obtain ⟨hc, hexecute⟩ := run_query_eq_ok_iff.1 h
      obtain ⟨all, hall, hevents⟩ := exists_execute_unpaged hconditions hnamed hexecute
      exact ⟨all, (run_rawEvents_eq_ok_iff hf hactive hcheck).2
        ⟨hc, orphan?_window hconditions, hall⟩, hevents⟩

end Store

/-- **There is one record for each event**, in the same order. -/
theorem forall₂_recordsOf {events : List Event} {records : List Record}
    (h : recordsOf (events.map Event.draft) = .ok records) :
    List.Forall₂ (fun e r => Record.ofDraft e.draft = .ok r) events records := by
  induction events generalizing records with
  | nil =>
    cases h
    exact .nil
  | cons e events ih =>
    rw [List.map_cons, recordsOf, List.mapM_cons] at h
    cases hr : Record.ofDraft e.draft with
    | error faults =>
      rw [hr] at h
      cases h
    | ok r =>
      rw [hr, ← recordsOf] at h
      cases hrs : recordsOf (events.map Event.draft) with
      | error faults =>
        rw [hrs] at h
        cases h
      | ok rs =>
        rw [hrs] at h
        cases h
        exact .cons hr (ih hrs)

namespace Http

open Listing Store

/-! ## Requests that are answered with events -/

theorem Response.status_ofFailure {failure : Failure}
    (h : failure.IsReported ∨ failure = .tooWide) :
    (ofFailure failure).status = 400 ∨ (ofFailure failure).status = 500 := by
  rcases h with h | rfl
  · cases h with
    | validation message field reason => exact .inl rfl
    | filter dimension value => exact .inl rfl
    | refused kind => exact .inr rfl
  · exact .inr rfl

theorem Response.status_ofParameterFault (fault : ParameterFault) :
    (ofParameterFault fault).status = 400 ∨ (ofParameterFault fault).status = 500 := by
  cases fault with
  | invalid name message => exact .inl rfl
  | numeral cause text => exact .inr rfl

/-- **A request that is answered with the status of a page** has been read, and lists events that
there are records of. -/
theorem of_listEvents_status {params : Parameters} {response : Response} {c c' : Connection}
    (h : (listEvents params).run c = (.ok response, c')) (hstatus : response.status = 200) :
    c' = c ∧ ∃ (r : EventsRequest) (events : List Event) (records : List Record),
      r.ReadFrom params ∧
        (eventsInWindow r.filterValues r.window r.options).run c = (.ok events, c) ∧
        recordsOf (events.map Event.draft) = .ok records ∧
        response = .ofDocument 200
          (listingDocument (records.map Record.item) (some r.offset) (some r.limit)) := by
  cases hread : EventsRequest.read params with
  | error fault =>
    rw [listEvents_of_read_error hread] at h
    cases h
    have hfault := Response.status_ofParameterFault fault
    omega
  | ok r =>
    obtain ⟨result, hrun⟩ := exists_run_rawEvents r.filterValues (r.window.restrict r.options) c
    rw [listEvents_of_read hread hrun] at h
    injection h with hresponse hc
    injection hresponse with hresponse
    subst hresponse
    refine ⟨hc.symm, ?_⟩
    cases result with
    | error failure =>
      have hfailure : (Response.ofFailure failure).status = 200 := hstatus
      have hstatuses := Response.status_ofFailure
        ((failure_of_run (orphan?_window rfl) hrun).imp_right And.left)
      omega
    | ok events =>
      rw [EventsRequest.responseTo] at hstatus ⊢
      cases hrecords : recordsOf (events.map Event.draft) with
      | error faults =>
        rw [hrecords] at hstatus
        cases hstatus
      | ok records =>
        exact ⟨r, events, records, EventsRequest.read_eq_ok_iff.1 hread, hrun, hrecords, rfl⟩

theorem listingDocument_of_limit (items : List Document) (offset : Int) {limit : Int}
    (h : 1 ≤ limit) :
    listingDocument items (some offset) (some limit) = .object [("kind", .text "calendar#events"),
      ("offset", .int offset), ("items", .array items), ("limit", .int limit)] := by
  unfold listingDocument
  split
  · contradiction
  · rename_i hzero
    cases hzero
    omega
  · rename_i hlimit
    cases hlimit
    rfl

namespace EventsRequest.ReadFrom

variable {params : Parameters} {r : EventsRequest} (h : r.ReadFrom params)
include h

/-- The limit of a request is not zero, which would be no limit. -/
theorem filter_limit : (some r.limit).filter (· != 0) = some r.limit := by
  have hlimit := h.limit_spec.1
  rw [Option.filter_some, if_pos (bne_iff_ne.2 (by omega))]

theorem limit?_eq {s : Statement} (hs : s.options = r.window.restrict r.options) :
    s.limit? = some r.limit := by
  rw [Statement.limit?, hs]
  exact h.filter_limit

end EventsRequest.ReadFrom

/-- **The page of a request.** A request that is answered with the status 200 shows its offset and
its limit, which is the one that it asks for, cut to 1000, or 50 if it asks for none; and its items
are the serialized events that there are without a page, but for the offset, up to the limit. Every
statement that a request runs has a limit. -/
theorem listEvents_page (params : Parameters) :
    (∀ c c' response, (listEvents params).run c = (.ok response, c') → response.status = 200 →
      c' = c ∧ ∃ (r : EventsRequest) (all : List Event) (items : List Document),
        r.ReadFrom params ∧
        (0 ≤ r.offset ∧ (params.lookup "offset" = none → r.offset = 0) ∧
          ∀ text, params.lookup "offset" = some text →
            Text.integer? text.toList = some r.offset) ∧
        ((1 ≤ r.limit ∧ r.limit ≤ 1000) ∧ (params.lookup "limit" = none → r.limit = 50) ∧
          ∀ text, params.lookup "limit" = some text →
            ∃ n, Text.integer? text.toList = some n ∧ 1 ≤ n ∧ r.limit = min n 1000) ∧
        response.body = .document (.object [("kind", .text "calendar#events"),
          ("offset", .int r.offset), ("items", .array items), ("limit", .int r.limit)]) ∧
        (eventsInWindow r.filterValues r.window (r.options.paged none none)).run c
          = (.ok all, c) ∧
        List.Forall₂ (fun e item => ∃ record, Record.ofDraft e.draft = .ok record ∧
          item = record.item) ((all.drop r.offset.toNat).take r.limit.toNat) items ∧
        (items.length : Int) ≤ r.limit) ∧
    (∀ answer log, ∃ response statements,
      (listEventsBy (recording answer) params).run log = (response, log ++ statements) ∧
        ∀ s ∈ statements, ∃ n, s.limit? = some n ∧ 1 ≤ n ∧ n ≤ 1000) ∧
    ∀ now request c, request.path = "/events" → request.isRead = true →
      QueryString.parameters request.query = params →
        ∃ response, (listEvents params).run c.sibling = (.ok response, c.sibling) ∧
          respond (routes now) request c = (response, c) := by
  refine ⟨fun c c' response h hstatus => ?_, fun answer log => ?_,
    fun now request c hpath hread hparams => ?_⟩
  · obtain ⟨hc, r, events, records, hr, hrun, hrecords, rfl⟩ := of_listEvents_status h hstatus
    have hlimit := hr.limit_spec
    obtain ⟨all, hall, hevents⟩ := exists_run_unpaged rfl (fun _ _ _ => rfl) hrun
    have hpage : events = (all.drop r.offset.toNat).take r.limit.toNat := by
      rw [hevents]
      show cut r.offset ((some r.limit).filter (· != 0)) all = _
      rw [hr.filter_limit]
      rfl
    refine ⟨hc, r, all, records.map Record.item, hr, hr.offset_spec, hlimit, ?_, hall, ?_, ?_⟩
    · exact congrArg Body.document (listingDocument_of_limit _ _ hlimit.1.1)
    · rw [← hpage, List.forall₂_map_right_iff]
      exact (forall₂_recordsOf hrecords).imp fun e record h => ⟨record, h, rfl⟩
    · have hlength := (forall₂_recordsOf hrecords).length_eq
      rw [hpage, List.length_take] at hlength
      rw [List.length_map]
      omega
  · obtain ⟨response, statements, hrun, -, hoptions⟩ :=
      exists_recorded_listEvents answer params log
    refine ⟨response, statements, hrun, fun s hs => ?_⟩
    obtain ⟨r, hr, hs⟩ := hoptions s hs
    exact ⟨r.limit, hr.limit?_eq hs, hr.limit_spec.1⟩
  · obtain ⟨response, -, h⟩ := listEvents_eq params c.sibling
    exact ⟨response, h, respond_events h now hpath hread hparams⟩

/-- A request for more than a page gets a page. -/
theorem listEvents_page_of_large_limit :
    ∃ response items, (listEvents [("courses", "5"), ("offset", "1"), ("limit", "5000")]).run
        (.opened (some timetable)) = (.ok response, .opened (some timetable)) ∧
      response.body = .document (.object [("kind", .text "calendar#events"), ("offset", .int 1),
        ("items", .array items), ("limit", .int 1000)]) ∧ items.length ≤ 1000 := by
  have hread : EventsRequest.read [("courses", "5"), ("offset", "1"), ("limit", "5000")] = .ok
      ⟨⟨.none, .none, .ids [5], .none⟩, .timestart, 1, 1000, none, none, false⟩ := rfl
  have hfits : IntegersFit ⟨.nobody, .nobody, .ofIds [5], .nobody⟩ (EventsRequest.options
      ⟨⟨.none, .none, .ids [5], .none⟩, .timestart, 1, 1000, none, none, false⟩) none none :=
    ⟨by decide, fun _ => ⟨by decide, by decide⟩, Window.unbound_open⟩
  obtain ⟨events, records, -, -, hrun⟩ := listEvents_of_fits (c := .opened (some timetable))
    (EventsRequest.read_eq_ok_iff.1 hread) rfl rfl (by decide) rfl hfits
  obtain ⟨-, r, all, items, hr, -, -, hbody, -, -, hlength⟩ := (listEvents_page _).1 _ _ _ hrun rfl
  cases hread.symm.trans (EventsRequest.read_eq_ok_iff.2 hr)
  exact ⟨_, items, hrun, hbody, Int.ofNat_le.1 hlength⟩

end Http

end EventCalendar
