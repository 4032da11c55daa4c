import EventCalendar.Proofs.RequestParameters
import EventCalendar.Proofs.WindowParameters

/-!
# Failures of a listing

A listing reports a page that is negative, a filter that is malformed, and the kind of the refusal
if the store refuses its statement. There is one failure that it does not report: an integer of the
statement that no cell holds.

* `window_execute_tooWide_iff`: when a statement fails for the width of an integer.
* `failure_of_run`, `run_window_eq_tooWide_iff`: how a listing fails.
* `exists_recordsOf`: there are records of well-typed events.
* `listEvents_of_fits`: a request whose integers fit is answered with its events.
* `listing_failures`: **what a listing reports**, and when a request for events is answered with an
  internal error.
-/

set_option autoImplicit false

namespace EventCalendar

namespace Listing

/-! ## Wide integers -/

/-- There is a cell for each integer of a listing: its ids, the numbers of its page, and the bounds
of its window. -/
structure IntegersFit (f : Filters) (o : Options) (start stop : Option Int) : Prop where
  ids : f.Fits
  page : (Statement.mk f o).PageFits
  bounds : ∀ name n, Window.Binds start stop name n → Cell.fits n = true

section
variable {f : Filters} {o : Options} {start stop : Option Int} {withDuration : Bool}
  (hconditions : o.conditions = [])
  (hnamed : ∀ name n, Window.Binds start stop name n → o.params.lookup name = none)
include hconditions hnamed

theorem window_bindable_iff :
    (∀ name ∈ (windowStatement f o start stop withDuration).names,
      (Binding.ofName ((Window.between start stop withDuration).restrict o).params name).Bindable) ↔
      ∀ name n, Window.Binds start stop name n → Cell.fits n = true := by
  constructor
  · intro hbindable name n hn
    exact fits_of_bindable (fun name n hn => Window.lookup_params hn (hnamed name n hn)) hbindable hn
  · intro hbounds name hname
    obtain ⟨n, hn, hbinding⟩ := window_ofName hconditions hnamed hname
    rw [hbinding]
    exact Binding.bindable_int_iff.2 (hbounds name n hn)

/-- **A statement for a window fails for the width of an integer** exactly if its order can be read,
there are tables, and there is no cell for one of its integers. -/
theorem window_execute_tooWide_iff {tables : Option Tables} :
    (windowStatement f o start stop withDuration).execute tables = .error (.unfit .tooWide) ↔
      tables.isSome = true ∧ (∃ order, (Statement.mk f o).Reads (fun _ => []) order) ∧
        ¬ IntegersFit f o start stop := by
  have hfits : ((windowStatement f o start stop withDuration).filters.Fits ∧
      (windowStatement f o start stop withDuration).PageFits ∧
        ∀ name ∈ (windowStatement f o start stop withDuration).names, (Binding.ofName
          ((Window.between start stop withDuration).restrict o).params name).Bindable) ↔
      IntegersFit f o start stop := by
    rw [window_bindable_iff hconditions hnamed]
    exact ⟨fun h => ⟨h.1, h.2.1, h.2.2⟩, fun h => ⟨h.ids, h.page, h.bounds⟩⟩
  have hwide : ∀ {order}, (Statement.mk f o).Reads (fun _ => []) order → ∀ t,
      ((windowStatement f o start stop withDuration).execute (some t) = .error (.unfit .tooWide) ↔
        ¬ IntegersFit f o start stop) := by
    intro order hreads t
    rw [← hfits]
    refine (window_reads withDuration hconditions hnamed hreads).execute_eq_tooWide_iff
      (window_no_clash hconditions) (fun name hname => ?_) t
    obtain ⟨n, -, hbinding⟩ := window_ofName hconditions hnamed hname
    exact ⟨n, hbinding⟩
  constructor
  · intro h
    obtain ⟨htables, order, hreads⟩ :=
      Statement.reads_of_execute_unfit (window_conditions_read hconditions hnamed) h
    have hplain : (Statement.mk f o).Reads (fun _ => []) order :=
      ⟨Statement.no_conditions hconditions, hreads.order, hreads.plainOrder⟩
    obtain ⟨t, rfl⟩ := Option.isSome_iff_exists.1 htables
    exact ⟨rfl, ⟨order, hplain⟩, (hwide hplain t).1 h⟩
  · intro h
    obtain ⟨htables, ⟨order, hreads⟩, hnot⟩ := h
    obtain ⟨t, rfl⟩ := Option.isSome_iff_exists.1 htables
    exact (hwide hreads t).2 hnot

end

theorem mem_of_execute {s : Statement} {t : Tables} {events : List Event}
    (h : s.execute (some t) = .ok events) {e : Event} (he : e ∈ events) : e ∈ t.events := by
  obtain ⟨-, -, t', -, sel, ht, -, -, -, rfl⟩ := Statement.execute_eq_ok_iff.1 h
  cases ht
  obtain ⟨row, hrow, rfl⟩ := List.mem_map.1 (mem_of_mem_cut he)
  have hjoined := List.mem_of_mem_filter ((List.mergeSort_perm _ _).mem_iff.1 hrow)
  obtain ⟨e, hstored, hrow⟩ := List.mem_flatMap.1 hjoined
  obtain ⟨b, -, hrow⟩ := List.mem_flatMap.1 hrow
  have hevent : row.event = e := by
    unfold withModules at hrow
    split at hrow
    · rw [List.mem_singleton.1 hrow]
    · obtain ⟨m, -, rfl⟩ := List.mem_map.1 hrow
      rfl
  exact hevent ▸ hstored

end Listing

/-! ## Records -/

theorem Datum.exists_read {c : Column} {x : Cell} (h : c.Holds x) :
    ∃ d, Datum.read c x.value = .ok d := by
  rcases h with ⟨hoptional, rfl⟩ | h
  · refine ⟨.null, ?_⟩
    rw [Datum.read, hoptional]
    rfl
  · cases htext : c.isText with
    | true =>
      rw [htext, if_pos rfl] at h
      obtain ⟨s, rfl⟩ := h
      refine ⟨.text s, ?_⟩
      rw [Datum.read, htext]
      cases c.isOptional <;> rfl
    | false =>
      rw [htext, if_neg (by simp)] at h
      obtain ⟨i, rfl, -⟩ := h
      refine ⟨.int i, ?_⟩
      rw [Datum.read, htext]
      cases c.isOptional <;> rfl

theorem Record.exists_ofDraft_of_reads {d : Draft}
    (h : ∀ c : Column, ∃ x, Datum.read c (d.value c) = .ok x) : ∃ r, Record.ofDraft d = .ok r := by
  have hnone : (Column.all.flatMap fun c =>
      Record.faultOf c.label (Datum.read c (d.value c))) = [] := by
    refine List.flatMap_eq_nil_iff.2 fun c _ => ?_
    obtain ⟨x, hx⟩ := h c
    rw [hx]
    rfl
  unfold Record.ofDraft Record.assemble
  rw [hnone]
  exact ⟨_, rfl⟩

/-- **There is a record of a well-typed event.** -/
theorem Record.exists_ofDraft {e : Event} (he : e.WellTyped) :
    ∃ r, Record.ofDraft e.draft = .ok r :=
  exists_ofDraft_of_reads fun c => Datum.exists_read (he c)

theorem exists_recordsOf {events : List Event} (h : ∀ e ∈ events, e.WellTyped) :
    ∃ records, recordsOf (events.map Event.draft) = .ok records := by
  induction events with
  | nil => exact ⟨[], rfl⟩
  | cons e events ih =>
    obtain ⟨he, hrest⟩ := List.forall_mem_cons.1 h
    obtain ⟨r, hr⟩ := Record.exists_ofDraft he
    obtain ⟨rs, hrs⟩ := ih hrest
    refine ⟨r :: rs, ?_⟩
    rw [List.map_cons, recordsOf, List.mapM_cons, hr, ← recordsOf, hrs]
    rfl

namespace Store

open Listing

/-! ## Reported failures -/

/-- The failures that a listing reports: data of the caller that is no good, without a cause in the
store, and refusals of its statement, with the kind of the refusal as their cause. -/
inductive Failure.IsReported : Failure → Prop
  | validation (message : String) (field : Option String) (reason : String) :
    IsReported (.service (.validation message field reason) none)
  | filter (dimension : String) (value : Value) :
    IsReported (.service (.invalidFilter dimension value) none)
  | refused (kind : FaultKind) :
    IsReported (.service (.eventQuery ("Raw event query failed: " ++ kind.name)) (some kind))

theorem Failure.not_isReported_tooWide : ¬ Failure.tooWide.IsReported := by
  intro h
  cases h

/-- Every fault of a statement is reported but for the width of an integer. -/
theorem isReported_ofExecutionFault {fault : ExecutionFault} (h : fault ≠ .unfit .tooWide) :
    (Failure.ofExecutionFault fault).IsReported := by
  cases fault with
  | clash c => exact .refused .compile
  | unbound => exact .refused .statement
  | unreadable => exact .refused .operational
  | mismatched => exact .refused .programming
  | unfit bindFault =>
    cases bindFault with
    | tooWide => exact absurd rfl h
    | unsupported kind => exact .refused .programming

theorem isReported_of_checkPage {o : Options} {e : ServiceError} (h : checkPage o = .error e) :
    (Failure.service e none).IsReported := by
  unfold checkPage at h
  split at h
  · cases h
    exact .validation _ _ _
  · split at h
    · cases h
      exact .validation _ _ _
    · cases h

theorem isReported_of_plan {values : ByDimension Value} {o : Options} {fault : PlanFault}
    (horphan : orphan? o = none) (h : plan values o = .error fault) :
    (Failure.ofPlanFault fault).IsReported := by
  cases hpage : checkPage o with
  | error e =>
    rw [plan_of_checkPage hpage] at h
    cases h
    exact isReported_of_checkPage hpage
  | ok _ =>
    cases hfirst : Filters.firstMalformed? values with
    | some d =>
      rw [plan_of_firstMalformed? hpage hfirst] at h
      cases h
      exact .filter _ _
    | none =>
      obtain ⟨f, hf⟩ := Filters.exists_coerce_iff.2 hfirst
      rw [plan_of_coerce hpage hf] at h
      cases hactive : f.allNone with
      | true =>
        rw [hactive, if_pos rfl] at h
        cases h
      | false =>
        rw [hactive, if_neg (by simp), build_eq hpage hactive, horphan] at h
        cases h

theorem result_eq_iff {α : Type} {action : Action α} {c : Connection} {result : Except Failure α}
    (h : action.run c = (result, c)) (r : Except Failure α) : result = r ↔ action.run c = (r, c) := by
  constructor
  · intro heq
    rw [← heq]
    exact h
  · intro hr
    cases h.symm.trans hr
    rfl

/-- A session that is asked for events fails for its statement, unless it has failed before. -/
theorem run_query_eq_error_iff {execute : Option Tables → Except ExecutionFault (List Event)}
    {c : Connection} {failure : Failure} :
    (query execute).run c = (.error failure, c) ↔
      c.failed = true ∧ failure = .query .pendingRollback ∨
        c.failed = false ∧ ∃ fault, execute c.tables = .error fault ∧
          failure = .ofExecutionFault fault := by
  cases hc : c.failed with
  | true =>
    rw [run_query_of_failed _ hc]
    constructor
    · intro h
      cases h
      exact .inl ⟨rfl, rfl⟩
    · rintro (⟨-, rfl⟩ | ⟨h, -⟩)
      · rfl
      · cases h
  | false =>
    rw [run_query _ hc]
    constructor
    · intro h
      cases hexecute : execute c.tables with
      | ok events =>
        rw [hexecute] at h
        cases h
      | error fault =>
        rw [hexecute] at h
        cases h
        exact .inr ⟨rfl, fault, rfl, rfl⟩
    · rintro (⟨h, -⟩ | ⟨-, fault, hexecute, rfl⟩)
      · cases h
      · rw [hexecute]
        rfl

/-- **How a listing fails**: as it reports, or because the statement that it runs fails for the
width of an integer. -/
theorem failure_of_run {values : ByDimension Value} {o : Options} (horphan : orphan? o = none)
    {c : Connection} {failure : Failure} (h : (rawEvents values o).run c = (.error failure, c)) :
    failure.IsReported ∨ failure = .tooWide ∧ c.failed = false ∧ checkPage o = .ok () ∧
      ∃ f, Filters.coerce values = .ok f ∧ f.allNone = false ∧
        (Statement.mk f o).execute c.tables = .error (.unfit .tooWide) := by
  unfold rawEvents at h
  cases hplan : plan values o with
  | error fault =>
    rw [hplan] at h
    cases h
    exact .inl (isReported_of_plan horphan hplan)
  | ok s? =>
    rw [hplan] at h
    obtain ⟨hpage, f, hf, ⟨-, rfl⟩ | ⟨hactive, rfl⟩⟩ := of_plan_eq_ok hplan
    · cases h
    · rcases run_query_eq_error_iff.1 h with ⟨-, rfl⟩ | ⟨hc, fault, hfault, rfl⟩
      · exact .inl (.refused .pendingRollback)
      · by_cases hwide : fault = .unfit .tooWide
        · subst hwide
          exact .inr ⟨rfl, hc, hpage, f, hf, hactive, hfault⟩
        · exact .inl (isReported_ofExecutionFault hwide)

/-- A listing runs a statement with an integer that no cell holds. -/
structure AsksTooWide (values : ByDimension Value) (o : Options) (start stop : Option Int)
    (c : Connection) : Prop where
  usable : c.failed = false
  hasTables : c.tables.isSome = true
  page : checkPage o = .ok ()
  /-- A dimension is active, and the text of the order can be read. -/
  statement : ∃ f, Filters.coerce values = .ok f ∧ f.allNone = false ∧
    (∃ order, (Statement.mk f o).Reads (fun _ => []) order) ∧ ¬ IntegersFit f o start stop

/-- **When a listing fails for the width of an integer.** -/
theorem run_window_eq_tooWide_iff {values : ByDimension Value} {o : Options}
    (hconditions : o.conditions = []) {start stop : Option Int}
    (hnamed : ∀ name n, Window.Binds start stop name n → o.params.lookup name = none)
    (withDuration : Bool) {c : Connection} :
    (eventsInWindow values (.between start stop withDuration) o).run c = (.error .tooWide, c) ↔
      AsksTooWide values o start stop c := by
  have horphan : orphan? ((Window.between start stop withDuration).restrict o) = none :=
    orphan?_window hconditions
  constructor
  · intro h
    rcases failure_of_run horphan h with hreported | ⟨-, hc, hpage, f, hf, hactive, hexecute⟩
    · exact absurd hreported Failure.not_isReported_tooWide
    · obtain ⟨htables, hreads, hfits⟩ :=
        (window_execute_tooWide_iff hconditions hnamed).1 hexecute
      exact ⟨hc, htables, hpage, f, hf, hactive, hreads, hfits⟩
  · intro h
    obtain ⟨f, hf, hactive, hreads, hfits⟩ := h.statement
    have hexecute : (windowStatement f o start stop withDuration).execute c.tables
        = .error (.unfit .tooWide) :=
      (window_execute_tooWide_iff hconditions hnamed).2 ⟨h.hasTables, hreads, hfits⟩
    have hpage : checkPage ((Window.between start stop withDuration).restrict o) = .ok () := h.page
    rw [eventsInWindow, rawEvents_eq_query hf hactive hpage horphan]
    exact run_query_eq_error_iff.2 (.inr ⟨h.usable, _, hexecute, rfl⟩)

end Store

namespace Http

open Listing Store

/-! ## Internal errors -/

theorem Response.ofFailure_ne_unexpected {failure : Failure} (h : failure.IsReported) :
    ofFailure failure ≠ unexpected := by
  intro heq
  cases h with
  | validation message field reason =>
    have hstatus : (400 : Int) = 500 := congrArg Response.status heq
    omega
  | filter dimension value =>
    have hstatus : (400 : Int) = 500 := congrArg Response.status heq
    omega
  | refused kind =>
    have hmessage := congrArg Response.body heq
    simp [ofFailure, ofError, unexpected, ofDocument, ServiceError.document, ServiceError.detail,
      ServiceError.serverDetail, ServiceError.unexpected, ErrorDetail.document, errorDocument]
      at hmessage

theorem EventsRequest.responseTo_eq_unexpected_iff {r : EventsRequest}
    {result : Except Failure (List Event)}
    (h : ∀ failure, result = .error failure → failure.IsReported ∨ failure = .tooWide) :
    r.responseTo result = .unexpected ↔ result = .error .tooWide ∨
      ∃ events faults, result = .ok events ∧ recordsOf (events.map Event.draft) = .error faults := by
  cases result with
  | error failure =>
    rcases h failure rfl with hreported | rfl
    · refine ⟨fun heq => absurd heq (Response.ofFailure_ne_unexpected hreported), fun heq => ?_⟩
      rcases heq with heq | ⟨_, _, heq, -⟩
      · cases heq
        exact absurd hreported Failure.not_isReported_tooWide
      · cases heq
    · exact ⟨fun _ => .inl rfl, fun _ => rfl⟩
  | ok events =>
    rw [responseTo]
    cases hrecords : recordsOf (events.map Event.draft) with
    | error faults => exact ⟨fun _ => .inr ⟨events, faults, rfl, hrecords⟩, fun _ => rfl⟩
    | ok records =>
      constructor
      · intro heq
        have hstatus : (200 : Int) = 500 := congrArg Response.status heq
        omega
      · intro heq
        rcases heq with heq | ⟨_, _, heq, hfaults⟩
        · cases heq
        · cases heq
          rw [hrecords] at hfaults
          cases hfaults

/-- **A request is answered with its events** if there is a cell for each integer that it asks with,
and the tables are sound. -/
theorem listEvents_of_fits {params : Parameters} {r : EventsRequest} (hr : r.ReadFrom params)
    {c : Connection} (hc : c.failed = false) {t : Tables} (ht : c.tables = some t)
    (hsound : t.Sound) {f : Filters} (hf : Filters.coerce r.filterValues = .ok f)
    (hfits : IntegersFit f r.options r.timeStart r.timeEnd) :
    ∃ events records,
      (eventsInWindow r.filterValues r.window r.options).run c = (.ok events, c) ∧
        recordsOf (events.map Event.draft) = .ok records ∧
        (listEvents params).run c = (.ok (.ofDocument 200 (listingDocument
          (records.map Record.item) (some r.offset) (some r.limit))), c) := by
  have hlimit := hr.limit_spec.1
  have hpaged : (Statement.mk f r.options).isPaged = true := by
    have hne : r.limit != 0 := by
      rw [bne_iff_ne]
      omega
    simp [Statement.isPaged, Statement.limit?, EventsRequest.options, hne]
  have hpage : r.options.PageOk := by
    constructor
    · intro n hn
      cases hn
      exact ⟨hr.offset_spec.1, (hfits.page hpaged).2⟩
    · intro n hn
      cases hn
      rw [Cell.fits_iff]
      omega
  obtain ⟨events, hrun⟩ := exists_run_window hf rfl (.inr ⟨r.order, rfl⟩) (fun _ _ _ => rfl) ht hc
    hfits.ids hpage hfits.bounds true
  have hstored : ∀ e ∈ events, e.WellTyped := by
    intro e he
    rcases execute_of_run hf hrun with rfl | hexecute
    · cases he
    · rw [ht] at hexecute
      exact hsound.events e (mem_of_execute hexecute he)
  obtain ⟨records, hrecords⟩ := exists_recordsOf hstored
  refine ⟨events, records, hrun, hrecords, ?_⟩
  rw [listEvents_of_read (EventsRequest.read_eq_ok_iff.2 hr) hrun, EventsRequest.responseTo,
    hrecords]

theorem Response.ofParameterFault_eq_unexpected_iff {fault : ParameterFault} :
    ofParameterFault fault = unexpected ↔ ∃ cause text, fault = .numeral cause text := by
  cases fault with
  | invalid name message =>
    constructor
    · intro heq
      have hstatus : (400 : Int) = 500 := congrArg Response.status heq
      omega
    · intro h
      obtain ⟨_, _, h⟩ := h
      cases h
  | numeral cause text => exact ⟨fun _ => ⟨cause, text, rfl⟩, fun _ => rfl⟩

end Http

end EventCalendar
