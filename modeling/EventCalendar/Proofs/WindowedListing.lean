import EventCalendar.Proofs.BestOfActivity
import EventCalendar.Proofs.Noninterference
import EventCalendar.Proofs.RoundedSum
import EventCalendar.Proofs.RowOrder

/-!
# Listings in a window

The conditions of a window stand behind the rule of a listing, whose best priorities are taken over
all times. So a window drops events from the list that there is without it, and does nothing else:

* `Window.holds_startTest_iff`, `Window.holds_stopTest_iff`: the tests of a window, said in exact
  integers, also for an event whose end is too wide for a cell.
* `passes_window_iff`: an event passes the tests of a window exactly if it lies in it.
* `sortRows_filter` lets rows be dropped before or after sorting, so `run_window_iff` says **what a
  listing in a window lists**, in any order, with and without bounds.
-/

set_option autoImplicit false

namespace EventCalendar

theorem Event.WellTyped.integer {e : Event} (h : e.WellTyped) {c : Column} (ht : c.isText = false)
    (ho : c.isOptional = false) :
    e.get c = .int (e.get c).integer ∧ Cell.fits (e.get c).integer = true := by
  have hc := h c
  simp only [Column.Holds, ht, ho, Bool.false_eq_true, false_and, if_false, false_or] at hc
  obtain ⟨i, hi, hfits⟩ := hc
  rw [hi]
  exact ⟨rfl, hfits⟩

namespace Listing

/-- The events that the rule of a listing selects, sorted by any keys. -/
def ruleEvents (f : Filters) (showHidden : Bool) (t : Tables) (order : List Sql.OrderTerm) :
    List Event :=
  (sortRows order ((joinedRows f showHidden t).filter (baseHolds f showHidden))).map (·.event)

/-! ## Tests -/

/-- The event lies in the window: it begins within the bounds, or, where durations count, is still
running at the start. It may end later than any integer of a cell. -/
def InWindow (start stop : Option Int) (withDuration : Bool) (e : Event) : Prop :=
  (∀ n, start = some n → n ≤ (e.get .timestart).integer ∨
    withDuration = true ∧ n < (e.get .timestart).integer + (e.get .timeduration).integer) ∧
  ∀ n, stop = some n → (e.get .timestart).integer ≤ n

instance (start stop : Option Int) (withDuration : Bool) (e : Event) :
    Decidable (InWindow start stop withDuration e) :=
  decidable_of_iff ((∀ n ∈ start, n ≤ (e.get .timestart).integer ∨
      withDuration = true ∧ n < (e.get .timestart).integer + (e.get .timeduration).integer) ∧
    ∀ n ∈ stop, (e.get .timestart).integer ≤ n) Iff.rfl

theorem inWindow_open (withDuration : Bool) (e : Event) : InWindow none none withDuration e := by
  constructor
  · intro n h
    cases h
  · intro n h
    cases h

namespace Window

theorem unbound_open {p : String → Int → Prop} (name : String) (n : Int)
    (h : Binds none none name n) : p name n := by
  rcases h with ⟨-, h⟩ | ⟨-, h⟩ <;> cases h

theorem boundCell_eq {n : Int} (hn : Cell.fits n = true) : boundCell n = .int n := by
  rw [boundCell, Cell.ofValue, if_pos hn]
  rfl

section
variable {e : Event} (he : e.WellTyped) {n : Int} (hn : Cell.fits n = true)
include he hn

theorem holds_compare_timestart (op : Comparison) :
    (Expr.compare op (.column (.event .timestart)) (.constant (boundCell n))).holds (.ofEvent e)
      = op.accepts (Ord.compare (e.get .timestart).integer n) := by
  obtain ⟨i, hi⟩ := he.int (c := .timestart) rfl rfl
  rw [Expr.holds, Expr.truth_compare, boundCell_eq hn]
  show (Expr.compareCells op .numeric .none (e.get .timestart) (.int n)).holds = _
  rw [hi]
  show (some (op.accepts (Ord.compare i n)) == some true) = op.accepts (Ord.compare i n)
  cases op.accepts (Ord.compare i n) <;> rfl

theorem holds_stopTest_iff :
    (stopTest n).holds (.ofEvent e) = true ↔ (e.get .timestart).integer ≤ n := by
  rw [stopTest, holds_compare_timestart he hn, Comparison.accepts, bne_iff_ne, Ne,
    Int.compare_eq_gt, not_lt]

/-- The end of an event is compared exactly, although it may be summed in doubles. -/
theorem holds_running_iff :
    (Expr.compare .gt (.add (.column (.event .timestart)) (.column (.event .timeduration)))
        (.constant (boundCell n))).holds (.ofEvent e) = true ↔
      n < (e.get .timestart).integer + (e.get .timeduration).integer := by
  obtain ⟨hstart, hi⟩ := he.integer (c := .timestart) rfl rfl
  obtain ⟨hduration, hj⟩ := he.integer (c := .timeduration) rfl rfl
  rw [Expr.holds, Expr.truth_compare, boundCell_eq hn, ← Cell.compare_add_eq_gt_iff hi hj hn]
  show (Expr.compareCells .gt .none .none ((e.get .timestart).add (e.get .timeduration))
    (.int n)).holds = true ↔ _
  rw [← hstart, ← hduration]
  cases (e.get .timestart).add (e.get .timeduration) with
  | null => exact ⟨fun h => (by cases h), fun h => (by cases h)⟩
  | _ => simp [Expr.compareCells, Expr.align, Truth.holds, Comparison.accepts]

theorem holds_startTest_iff (withDuration : Bool) :
    (startTest withDuration n).holds (.ofEvent e) = true ↔
      n ≤ (e.get .timestart).integer ∨
        withDuration = true ∧ n < (e.get .timestart).integer + (e.get .timeduration).integer := by
  have hbegins : (Expr.compare .ge (.column (.event .timestart)) (.constant (boundCell n))).holds
      (.ofEvent e) = true ↔ n ≤ (e.get .timestart).integer := by
    rw [holds_compare_timestart he hn, Comparison.accepts, bne_iff_ne, Ne, Int.compare_eq_lt,
      not_lt]
  cases withDuration with
  | false => simp [startTest, hbegins]
  | true =>
    rw [startTest, if_pos rfl, Expr.holds_or, Bool.or_eq_true, hbegins, holds_running_iff he hn]
    simp

end

end Window

section
variable {f : Filters} {o : Options} {start stop : Option Int} {withDuration : Bool}
  (hconditions : o.conditions = [])
include hconditions

theorem window_conditions_eq :
    (windowStatement f o start stop withDuration).conditions
      = (Window.between start stop withDuration).conditions := by
  show ((Window.between start stop withDuration).conditions ++ o.conditions).filter _ = _
  rw [hconditions, List.append_nil]
  cases start <;> cases stop <;> cases withDuration <;> rfl

/-- **An event passes the tests of a window** exactly if it lies in it. -/
theorem passes_window_iff (hbounds : ∀ name n, Window.Binds start stop name n → Cell.fits n = true)
    {e : Event} (he : e.WellTyped) :
    (windowStatement f o start stop withDuration).passes (Window.test start stop withDuration) e
        = true ↔ InWindow start stop withDuration e := by
  rw [Statement.passes, window_conditions_eq hconditions, Window.conditions, List.all_append,
    Bool.and_eq_true, InWindow]
  refine and_congr ?_ ?_
  · cases start with
    | none => exact ⟨fun _ n h => (by cases h), fun _ => rfl⟩
    | some n =>
      have hn : Cell.fits n = true := hbounds "window_start" n (.inl ⟨rfl, rfl⟩)
      have htest := Window.holds_startTest_iff he hn withDuration
      cases withDuration <;>
        simpa [Window.startConditions, Window.between, Window.test, Value.isNull,
          Http.EventsRequest.boundValue] using htest
  · cases stop with
    | none => exact ⟨fun _ n h => (by cases h), fun _ => rfl⟩
    | some n =>
      have hn : Cell.fits n = true := hbounds "window_end" n (.inr ⟨rfl, rfl⟩)
      have htest := Window.holds_stopTest_iff he hn
      simpa [Window.stopConditions, Window.between, Window.test, Value.isNull,
        Http.EventsRequest.boundValue] using htest

/-- The rows of events in the window may be picked out before or after sorting. -/
theorem map_sortRows_window
    (hbounds : ∀ name n, Window.Binds start stop name n → Cell.fits n = true) {t : Tables}
    (ht : t.Sound) (order : List Sql.OrderTerm) :
    (sortRows order ((joinedRows f o.showHidden t).filter fun row => baseHolds f o.showHidden row &&
        (windowStatement f o start stop withDuration).passes
          (Window.test start stop withDuration) row.event)).map (·.event)
      = (ruleEvents f o.showHidden t order).filter fun e => InWindow start stop withDuration e := by
  have hwellTyped : ∀ row ∈ joinedRows f o.showHidden t, row.event.WellTyped := by
    intro row hrow
    rw [joinedRows_eq ht] at hrow
    obtain ⟨e, he, rfl⟩ := List.mem_map.1 hrow
    exact ht.events e (List.mem_of_mem_filter he)
  rw [ruleEvents, List.filter_map, ← sortRows_filter, List.filter_filter]
  congr 2
  refine List.filter_congr fun row hrow => ?_
  rw [Bool.and_comm, Function.comp_apply, Bool.eq_iff_iff.2 ((passes_window_iff hconditions hbounds
    (hwellTyped row hrow)).trans decide_eq_true_iff.symm)]

end

end Listing

namespace Store

open Listing

theorem eventsInWindow_open (values : ByDimension Value) (o : Options) :
    eventsInWindow values (.between none none false) o = rawEvents values o := by
  rw [eventsInWindow]
  exact congrArg _ (Window.restrict_open false o)

theorem checkPage_window {o : Options} (hoffset : o.offset = none) (hlimit : o.limit = none)
    (w : Window) : checkPage (w.restrict o) = .ok () :=
  checkPage_eq_ok_iff.2 ⟨by simp [Window.restrict, hoffset], by simp [Window.restrict, hlimit]⟩

section
variable {values : ByDimension Value} {f : Filters} (hf : Filters.coerce values = .ok f)
  {o : Options} (hoffset : o.offset = none) (hlimit : o.limit = none)
include hf hoffset hlimit

theorem eventsInWindow_of_allNone (hnone : f.allNone = true) (w : Window) :
    eventsInWindow values w o = pure [] :=
  rawEvents_of_allNone hf hnone (checkPage_window hoffset hlimit w)

variable (hconditions : o.conditions = []) {c : Connection} {t : Tables} (ht : c.tables = some t)
  (hsound : t.Sound) (hactive : f.allNone = false)
include hconditions ht hsound hactive

/-- **What a listing in a window lists**: of the sorted events of its rule those in the window. -/
theorem run_window_iff {start stop : Option Int}
    (hnamed : ∀ name n, Window.Binds start stop name n → o.params.lookup name = none)
    (hbounds : ∀ name n, Window.Binds start stop name n → Cell.fits n = true)
    (withDuration : Bool) (events : List Event) :
    (eventsInWindow values (.between start stop withDuration) o).run c = (.ok events, c) ↔
      c.failed = false ∧ f.Fits ∧ ∃ order, (Statement.mk f o).Reads (fun _ => []) order ∧
        events = (ruleEvents f o.showHidden t order).filter
          fun e => InWindow start stop withDuration e := by
  have hpage : (Statement.mk f o).PageFits := by
    intro hpaged
    simp [Statement.isPaged, Statement.offset, Statement.limit?, hoffset, hlimit] at hpaged
  have hcut : ∀ events : List Event,
      cut (Statement.mk f o).offset (Statement.mk f o).limit? events = events := by
    intro events
    rw [Statement.offset, Statement.limit?, hoffset, hlimit]
    rfl
  have hexecute : ∀ order, (Statement.mk f o).Reads (fun _ => []) order →
      ((windowStatement f o start stop withDuration).execute (some t) = .ok events ↔
        f.Fits ∧ events = (ruleEvents f o.showHidden t order).filter
          fun e => InWindow start stop withDuration e) := by
    intro order hreads
    rw [window_execute_iff withDuration hconditions hnamed hreads hbounds hpage, hcut,
      map_sortRows_window hconditions hbounds hsound]
  unfold eventsInWindow
  rw [run_rawEvents_eq_ok_iff hf hactive (checkPage_window hoffset hlimit _), ht,
    and_iff_right (orphan?_window hconditions)]
  refine and_congr_right fun _ => ?_
  constructor
  · intro h
    -- The text of the order is the one part of the statement that may be unreadable.
    obtain ⟨order, hreads⟩ :=
      Statement.reads_of_execute (window_conditions_read hconditions hnamed) h
    have hplain : (Statement.mk f o).Reads (fun _ => []) order :=
      ⟨Statement.no_conditions hconditions, hreads.order, hreads.plainOrder⟩
    obtain ⟨hfits, hevents⟩ := (hexecute order hplain).1 h
    exact ⟨hfits, order, hplain, hevents⟩
  · intro h
    obtain ⟨hfits, order, hreads, hevents⟩ := h
    exact (hexecute order hreads).2 ⟨hfits, hevents⟩

theorem run_ruleEvents_iff (events : List Event) :
    (rawEvents values o).run c = (.ok events, c) ↔
      c.failed = false ∧ f.Fits ∧ ∃ order, (Statement.mk f o).Reads (fun _ => []) order ∧
        events = ruleEvents f o.showHidden t order := by
  have h := run_window_iff hf hoffset hlimit hconditions ht hsound hactive Window.unbound_open
    Window.unbound_open false events
  simpa only [eventsInWindow_open, inWindow_open, decide_true, List.filter_true] using h

end

theorem run_window_tooWide {values : ByDimension Value} {f : Filters}
    (hf : Filters.coerce values = .ok f) {o : Options} (hconditions : o.conditions = [])
    (hoffset : o.offset = none) (hlimit : o.limit = none) {start stop : Option Int}
    (hnamed : ∀ name n, Window.Binds start stop name n → o.params.lookup name = none)
    (withDuration : Bool) {c : Connection} {t : Tables} (ht : c.tables = some t)
    (hc : c.failed = false) (hfits : ¬ f.Fits) (hordered : o.IsOrdered) :
    (eventsInWindow values (.between start stop withDuration) o).run c = (.error .tooWide, c) := by
  obtain ⟨descending, column, hreads⟩ := hordered.exists_reads (f := f) hconditions
  have hquery := rawEvents_eq_query hf (Filters.allNone_of_not_fits hfits)
    (checkPage_window hoffset hlimit (.between start stop withDuration))
    (orphan?_window hconditions)
  rw [eventsInWindow, hquery, run_query _ hc, ht,
    window_execute_tooWide withDuration hconditions hnamed hreads hfits]
  rfl

/-- **A window filters a listing**, in whatever order: it lists just those of the events listed
without it that lie in it. So it brings back no event that one outside the window outranks. In a
usable session events are listed if there are cells for all ids, else both listings fail. -/
theorem eventsInWindow_eq_filter {values : ByDimension Value} {f : Filters}
    (hf : Filters.coerce values = .ok f) {o : Options} (hconditions : o.conditions = [])
    (hoffset : o.offset = none) (hlimit : o.limit = none) (hparams : Window.Unnamed o.params)
    {start stop : Option Int} (hstart : ∀ n, start = some n → Cell.fits n = true)
    (hstop : ∀ n, stop = some n → Cell.fits n = true) (withDuration : Bool) {c : Connection}
    {t : Tables} (ht : c.tables = some t) (hsound : t.Sound) :
    (∀ events,
      (eventsInWindow values (.between start stop withDuration) o).run c = (.ok events, c) ↔
        ∃ raw, (rawEvents values o).run c = (.ok raw, c) ∧
          events = raw.filter fun e => InWindow start stop withDuration e) ∧
    (c.failed = false → o.IsOrdered →
      (f.Fits → ∃ raw, (rawEvents values o).run c = (.ok raw, c)) ∧
      (¬ f.Fits → (rawEvents values o).run c = (.error .tooWide, c) ∧
        (eventsInWindow values (.between start stop withDuration) o).run c
          = (.error .tooWide, c))) := by
  have hbounds : ∀ name n, Window.Binds start stop name n → Cell.fits n = true := by
    intro name n h
    rcases h with ⟨-, h⟩ | ⟨-, h⟩
    · exact hstart n h
    · exact hstop n h
  refine ⟨fun events => ?_, fun hc hordered => ⟨fun hfits => ?_, fun hfits => ⟨?_, ?_⟩⟩⟩
  · cases hactive : f.allNone with
    | true =>
      rw [eventsInWindow_of_allNone hf hoffset hlimit hactive, ← eventsInWindow_open,
        eventsInWindow_of_allNone hf hoffset hlimit hactive]
      constructor
      · intro h
        cases h
        exact ⟨[], rfl, rfl⟩
      · intro h
        obtain ⟨raw, h, rfl⟩ := h
        cases h
        rfl
    | false =>
      have hraw := run_ruleEvents_iff hf hoffset hlimit hconditions ht hsound hactive
      rw [run_window_iff hf hoffset hlimit hconditions ht hsound hactive
        (fun name n h => hparams.of_binds h) hbounds]
      constructor
      · intro h
        obtain ⟨hc, hfits, order, hreads, rfl⟩ := h
        exact ⟨_, (hraw _).2 ⟨hc, hfits, order, hreads, rfl⟩, rfl⟩
      · intro h
        obtain ⟨raw, h, rfl⟩ := h
        obtain ⟨hc, hfits, order, hreads, rfl⟩ := (hraw raw).1 h
        exact ⟨hc, hfits, order, hreads, rfl⟩
  · have hpage : o.PageOk := ⟨by simp [hoffset], by simp [hlimit]⟩
    rw [← eventsInWindow_open]
    exact exists_run_window hf hconditions hordered Window.unbound_open ht hc hfits hpage
      Window.unbound_open false
  · rw [← eventsInWindow_open]
    exact run_window_tooWide hf hconditions hoffset hlimit Window.unbound_open false ht hc hfits
      hordered
  · exact run_window_tooWide hf hconditions hoffset hlimit (fun name n h => hparams.of_binds h)
      withDuration ht hc hfits hordered

/-- A deadline is not brought back by a window that its extension lies outside of, and an event is
still running whose end is too wide for a cell. -/
theorem eventsInWindow_of_extension :
    ∃ events, (eventsInWindow ⟨.int 4, .null, .int 5, .null⟩ (.between (some 50) (some 200) true)
        .default).run (.opened (some timetable)) = (.ok events, .opened (some timetable)) ∧
      deadline ∉ events ∧ extension ∉ events ∧ everlasting ∈ events := by
  have hcoerce : Filters.coerce ⟨.int 4, .null, .int 5, .null⟩
      = .ok ⟨.ofIds [4], .nobody, .ofIds [5], .nobody⟩ := rfl
  have hsound : timetable.Sound := by decide
  have hraw := run_rawEvents_of_fits hcoerce (by decide) (c := .opened (some timetable)) rfl rfl
    hsound false
  have hmem := fun e => mem_sortedEvents_iff hsound ⟨.ofIds [4], .nobody, .ofIds [5], .nobody⟩ false
    false .timestart (e := e)
  have hstart : ∀ n, some 50 = some n → Cell.fits n = true := by decide
  have hstop : ∀ n, some 200 = some n → Cell.fits n = true := by decide
  obtain ⟨hwindow, -⟩ := eventsInWindow_eq_filter hcoerce (o := .default) rfl rfl rfl ⟨rfl, rfl⟩
    hstart hstop true (c := .opened (some timetable)) rfl hsound
  refine ⟨_, (hwindow _).2 ⟨_, hraw, rfl⟩, fun h => ?_, fun h => ?_, ?_⟩
  · exact absurd ((hmem _).1 (List.mem_of_mem_filter h)).unrivalled (by decide)
  · exact absurd (List.mem_filter.1 h).2 (by decide)
  · have hlisted := (hmem everlasting).2 ⟨by simp [timetable], by decide, by decide, by decide⟩
    exact List.mem_filter.2 ⟨hlisted, by decide⟩

end Store

end EventCalendar
