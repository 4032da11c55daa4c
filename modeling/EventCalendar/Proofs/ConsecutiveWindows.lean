import EventCalendar.Proofs.WindowedListing

/-!
# Windows one after the other

A window is cut in two after an integer `b`: the first part ends at `b`, the second one begins at
`b + 1`.

* `inWindow_iff_or`: each event of the window lies in one part at least.
* `inWindow_and_iff`: an event lies in both exactly if durations count and it is still running after
  `b + 1`.
* `InWindow.withDuration`: counting durations drops no event.
* `exists_run_windows`: a session picks the lists of all windows out of one list.
* `consecutive_windows`: **consecutive windows cover a range**.
-/

set_option autoImplicit false

namespace EventCalendar

namespace Listing

/-! ## Parts of a window -/

section
variable {a b c : Int} (hbc : b < c) (withDuration : Bool) (e : Event)
include hbc

/-- **Each event of a window lies in one of its parts.** -/
theorem inWindow_iff_or (hab : a ≤ b) :
    InWindow (some a) (some c) withDuration e ↔
      InWindow (some a) (some b) withDuration e ∨
        InWindow (some (b + 1)) (some c) withDuration e := by
  simp only [InWindow, Option.some.injEq, forall_eq']
  generalize (e.get .timestart).integer = start
  generalize (e.get .timeduration).integer = duration
  constructor
  · rintro ⟨hstart, hstop⟩
    by_cases hb : start ≤ b
    · exact .inl ⟨hstart, hb⟩
    · exact .inr ⟨.inl (by omega), hstop⟩
  · rintro (⟨hstart, hb⟩ | ⟨hstart, hstop⟩)
    · exact ⟨hstart, by omega⟩
    · refine ⟨hstart.imp (fun h => ?_) fun h => ⟨h.1, ?_⟩, hstop⟩ <;> omega

/-- **What lies in both parts** is what is still running in the second one. -/
theorem inWindow_and_iff :
    InWindow (some a) (some b) withDuration e ∧ InWindow (some (b + 1)) (some c) withDuration e ↔
      withDuration = true ∧ InWindow (some a) (some b) withDuration e ∧
        b + 1 < (e.get .timestart).integer + (e.get .timeduration).integer := by
  simp only [InWindow, Option.some.injEq, forall_eq']
  generalize (e.get .timestart).integer = start
  generalize (e.get .timeduration).integer = duration
  constructor
  · rintro ⟨hfirst, hstart | ⟨hduration, hrunning⟩, -⟩
    · -- It does not begin in the second part, since it begins in the first one.
      have := hfirst.2
      omega
    · exact ⟨hduration, hfirst, hrunning⟩
  · rintro ⟨hduration, hfirst, hrunning⟩
    have := hfirst.2
    exact ⟨hfirst, .inr ⟨hduration, hrunning⟩, by omega⟩

end

theorem InWindow.withDuration {start stop : Option Int} {e : Event}
    (h : InWindow start stop false e) : InWindow start stop true e :=
  ⟨fun n hn => (h.1 n hn).imp_right fun hrunning => (by cases hrunning.1), h.2⟩

def BeginsWithin (a c : Int) (e : Event) : Prop :=
  a ≤ (e.get .timestart).integer ∧ (e.get .timestart).integer ≤ c

theorem BeginsWithin.inWindow {a c : Int} {e : Event} (h : BeginsWithin a c e)
    (withDuration : Bool) : InWindow (some a) (some c) withDuration e := by
  constructor
  · rintro n ⟨⟩
    exact .inl h.1
  · rintro n ⟨⟩
    exact h.2

/-- The events of a window and of its parts, the second of which begins after `b`. -/
structure Parts (b : Int) (withDuration : Bool) (whole first second : List Event) : Prop where
  union : ∀ e, e ∈ whole ↔ e ∈ first ∨ e ∈ second
  common : ∀ e, e ∈ first ∧ e ∈ second ↔
    withDuration = true ∧ e ∈ first ∧
      b + 1 < (e.get .timestart).integer + (e.get .timeduration).integer
  disjoint : withDuration = false → first.Disjoint second

theorem parts_filter {a b c : Int} (hab : a ≤ b) (hbc : b < c) (withDuration : Bool)
    (events : List Event) :
    Parts b withDuration (events.filter fun e => InWindow (some a) (some c) withDuration e)
      (events.filter fun e => InWindow (some a) (some b) withDuration e)
      (events.filter fun e => InWindow (some (b + 1)) (some c) withDuration e) := by
  have hcommon : ∀ e,
      e ∈ events.filter (fun e => InWindow (some a) (some b) withDuration e) ∧
        e ∈ events.filter (fun e => InWindow (some (b + 1)) (some c) withDuration e) ↔
      withDuration = true ∧
        e ∈ events.filter (fun e => InWindow (some a) (some b) withDuration e) ∧
          b + 1 < (e.get .timestart).integer + (e.get .timeduration).integer := by
    intro e
    have h := inWindow_and_iff (a := a) hbc withDuration e
    simp only [List.mem_filter, decide_eq_true_eq]
    constructor
    · rintro ⟨⟨he, hfirst⟩, -, hsecond⟩
      obtain ⟨hduration, -, hrunning⟩ := h.1 ⟨hfirst, hsecond⟩
      exact ⟨hduration, ⟨he, hfirst⟩, hrunning⟩
    · rintro ⟨hduration, ⟨he, hfirst⟩, hrunning⟩
      exact ⟨⟨he, hfirst⟩, he, (h.2 ⟨hduration, hfirst, hrunning⟩).2⟩
  refine ⟨fun e => ?_, hcommon, fun hduration e hfirst hsecond => ?_⟩
  · simp only [List.mem_filter, decide_eq_true_eq, inWindow_iff_or hbc withDuration e hab,
      and_or_left]
  · rw [((hcommon e).1 ⟨hfirst, hsecond⟩).1] at hduration
    cases hduration

end Listing

namespace Store

open Listing

section
variable {values : ByDimension Value} {f : Filters} (hf : Filters.coerce values = .ok f)
  {o : Options} (hconditions : o.conditions = []) (hoffset : o.offset = none)
  (hlimit : o.limit = none) (hparams : Window.Unnamed o.params) (hordered : o.IsOrdered)
  {c : Connection} {t : Tables} (ht : c.tables = some t) (hsound : t.Sound)
include hf hconditions hoffset hlimit hparams hordered ht hsound

/-- The events in each window are picked out of one list, if there are cells for the ids. -/
theorem exists_run_windows (hc : c.failed = false) (hfits : f.Fits) :
    ∃ raw, (rawEvents values o).run c = (.ok raw, c) ∧
      ∀ start stop withDuration,
        (∀ name n, Window.Binds start stop name n → Cell.fits n = true) →
          (eventsInWindow values (.between start stop withDuration) o).run c
            = (.ok (raw.filter fun e => InWindow start stop withDuration e), c) := by
  cases hactive : f.allNone with
  | true =>
    have hnone := fun w => eventsInWindow_of_allNone hf hoffset hlimit hactive w
    refine ⟨[], ?_, fun start stop withDuration _ => ?_⟩
    · rw [← eventsInWindow_open, hnone]
      rfl
    · rw [hnone]
      rfl
  | false =>
    obtain ⟨descending, column, hreads⟩ := hordered.exists_reads (f := f) hconditions
    refine ⟨ruleEvents f o.showHidden t (orderBy descending column), ?_,
      fun start stop withDuration hbounds => ?_⟩
    · exact (run_ruleEvents_iff hf hoffset hlimit hconditions ht hsound hactive _).2
        ⟨hc, hfits, _, hreads, rfl⟩
    · exact (run_window_iff hf hoffset hlimit hconditions ht hsound hactive
        (fun name n h => hparams.of_binds h) hbounds withDuration _).2 ⟨hc, hfits, _, hreads, rfl⟩

/-- **Consecutive windows cover a range.** In a usable session the events of a window are those of
its two parts. Without durations no event is in both parts; with them, the events in both are those
of the first one that are still running after the second one begins. Nothing is lost: an event that
is listed without a window and begins in it is among them. A window lists no fewer events if
durations count. All these lists exist if there are cells for the ids; else all of them fail. -/
theorem consecutive_windows (hc : c.failed = false) :
    (f.Fits → ∃ raw, (rawEvents values o).run c = (.ok raw, c) ∧
      (∀ {a b d : Int}, a ≤ b → b < d → Cell.fits a = true → Cell.fits d = true →
        ∀ withDuration, ∃ whole first second,
          (eventsInWindow values (.between (some a) (some d) withDuration) o).run c
            = (.ok whole, c) ∧
          (eventsInWindow values (.between (some a) (some b) withDuration) o).run c
            = (.ok first, c) ∧
          (eventsInWindow values (.between (some (b + 1)) (some d) withDuration) o).run c
            = (.ok second, c) ∧
          Parts b withDuration whole first second ∧
          ∀ e ∈ raw, BeginsWithin a d e → e ∈ whole) ∧
      ∀ start stop, (∀ name n, Window.Binds start stop name n → Cell.fits n = true) →
        ∃ short long,
          (eventsInWindow values (.between start stop false) o).run c = (.ok short, c) ∧
          (eventsInWindow values (.between start stop true) o).run c = (.ok long, c) ∧
          short ⊆ long) ∧
    (¬ f.Fits → ∀ start stop withDuration,
      (eventsInWindow values (.between start stop withDuration) o).run c = (.error .tooWide, c)) := by
  refine ⟨fun hfits => ?_, fun hfits start stop withDuration => ?_⟩
  · obtain ⟨raw, hraw, hwindow⟩ := exists_run_windows hf hconditions hoffset hlimit hparams hordered
      ht hsound hc hfits
    refine ⟨raw, hraw, fun {a b d} hab hbd ha hd withDuration => ?_, fun start stop hbounds => ?_⟩
    · have hbetween : ∀ {m n : Int}, Cell.fits m = true → Cell.fits n = true →
          ∀ name k, Window.Binds (some m) (some n) name k → Cell.fits k = true := by
        rintro m n hm hn name k (⟨-, ⟨⟩⟩ | ⟨-, ⟨⟩⟩)
        · exact hm
        · exact hn
      have hb : Cell.fits b = true ∧ Cell.fits (b + 1) = true := by
        rw [Cell.fits_iff] at ha hd ⊢
        rw [Cell.fits_iff]
        omega
      refine ⟨_, _, _, hwindow _ _ withDuration (hbetween ha hd),
        hwindow _ _ withDuration (hbetween ha hb.1), hwindow _ _ withDuration (hbetween hb.2 hd),
        parts_filter hab hbd withDuration raw, fun e he hbegins => ?_⟩
      exact List.mem_filter.2 ⟨he, decide_eq_true (hbegins.inWindow withDuration)⟩
    · refine ⟨_, _, hwindow start stop false hbounds, hwindow start stop true hbounds, ?_⟩
      intro e he
      obtain ⟨he, hin⟩ := List.mem_filter.1 he
      exact List.mem_filter.2 ⟨he, decide_eq_true (of_decide_eq_true hin).withDuration⟩
  · exact run_window_tooWide hf hconditions hoffset hlimit (fun name n h => hparams.of_binds h)
      withDuration ht hc hfits hordered

end

/-- An event that is still running when the second part begins is in both, and an extension after it
in the second one. -/
theorem consecutive_windows_of_everlasting :
    ∃ first second,
      (eventsInWindow ⟨.int 4, .null, .int 5, .null⟩ (.between (some 10) (some 100) true)
          .default).run (.opened (some timetable)) = (.ok first, .opened (some timetable)) ∧
      (eventsInWindow ⟨.int 4, .null, .int 5, .null⟩ (.between (some 101) (some 600) true)
          .default).run (.opened (some timetable)) = (.ok second, .opened (some timetable)) ∧
      everlasting ∈ first ∧ everlasting ∈ second ∧ extension ∈ second := by
  have hcoerce : Filters.coerce ⟨.int 4, .null, .int 5, .null⟩
      = .ok ⟨.ofIds [4], .nobody, .ofIds [5], .nobody⟩ := rfl
  have hsound : timetable.Sound := by decide
  have hall := run_rawEvents_of_fits hcoerce (by decide) (c := .opened (some timetable)) rfl rfl
    hsound false
  have hmem := fun e => mem_sortedEvents_iff hsound ⟨.ofIds [4], .nobody, .ofIds [5], .nobody⟩ false
    false .timestart (e := e)
  obtain ⟨raw, hraw, hwindows, -⟩ := (consecutive_windows hcoerce (o := .default) rfl rfl rfl
    ⟨rfl, rfl⟩ (.inl rfl) (c := .opened (some timetable)) rfl hsound rfl).1 (by decide)
  cases hall.symm.trans hraw
  have heverlasting := (hmem everlasting).2 ⟨by simp [timetable], by decide, by decide, by decide⟩
  have hextension := (hmem extension).2 ⟨by simp [timetable], by decide, by decide, by decide⟩
  obtain ⟨whole, first, second, -, hfirst, hsecond, hparts, hwhole⟩ :=
    hwindows (a := 10) (b := 100) (d := 600) (by decide) (by decide) (by decide) (by decide) true
  -- The parts are windows as well, each with parts of its own.
  obtain ⟨first', -, -, hfirst', -, -, -, hbegins⟩ :=
    hwindows (a := 10) (b := 50) (d := 100) (by decide) (by decide) (by decide) (by decide) true
  obtain ⟨second', -, -, hsecond', -, -, -, hbegins'⟩ :=
    hwindows (a := 101) (b := 200) (d := 600) (by decide) (by decide) (by decide) (by decide) true
  cases hfirst.symm.trans hfirst'
  cases hsecond.symm.trans hsecond'
  have hin : everlasting ∈ first := hbegins _ heverlasting ⟨by decide, by decide⟩
  have hboth := (hparts.common everlasting).2 ⟨rfl, hin, by decide⟩
  exact ⟨first, second, hfirst, hsecond, hboth.1, hboth.2,
    hbegins' _ hextension ⟨by decide, by decide⟩⟩

end Store

end EventCalendar
