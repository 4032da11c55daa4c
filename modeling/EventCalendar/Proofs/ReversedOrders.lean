import EventCalendar.Proofs.ListingFailures
import EventCalendar.Proofs.WindowedListing

/-!
# Orders of one listing

A request may ask for five orders. They sort the same events, and an order whose name begins with a
minus is the other one upside down, since both keys of its clause change their direction:

* `sortedEvents_descending`: downwards, sorted events are the reverse of what they are upwards.
* `run_ordered_cases`: in all orders a listing fails alike, or it sorts one and the same events.
* `reversed_orders`: **the orders of a listing**.
-/

set_option autoImplicit false

namespace EventCalendar

theorem Http.SortKey.of_label_eq {k k' : SortKey} (h : k'.label = "-" ++ k.label) :
    k.isDescending = false ∧ k'.isDescending = true ∧ k'.column = k.column := by
  cases k <;> cases k' <;> first | exact ⟨rfl, rfl, rfl⟩ | exact absurd h (by decide)

namespace Listing

/-! ## Sorted events -/

section
variable {t : Tables} (ht : t.Sound) (f : Filters) (showHidden : Bool) (p : Row → Bool)
include ht

theorem sortedEvents_perm_sortedEvents (descending descending' : Bool) (c c' : Column) :
    (sortedEvents f showHidden t p descending c).Perm
      (sortedEvents f showHidden t p descending' c') :=
  (sortedEvents_perm ht f showHidden p descending c).trans
    (sortedEvents_perm ht f showHidden p descending' c').symm

/-- **Downwards, sorted events are the reverse** of what they are upwards. -/
theorem sortedEvents_descending (c : Column) :
    sortedEvents f showHidden t p true c = (sortedEvents f showHidden t p false c).reverse := by
  have hperm : (sortedEvents f showHidden t p true c).Perm
      (sortedEvents f showHidden t p false c).reverse :=
    (sortedEvents_perm_sortedEvents ht f showHidden p true false c c).trans
      (List.reverse_perm _).symm
  refine eq_of_sorted_of_perm hperm (nodup_id_sortedEvents ht ..) (pairwise_sortedEvents ht ..) ?_
  rw [List.pairwise_reverse]
  exact pairwise_sortedEvents ht f showHidden p false c

end

def Options.ordered (o : Options) (k : Http.SortKey) : Options := { o with order := some k.clause }

/-- The events of a window in an order of a request. -/
def windowEvents (f : Filters) (showHidden : Bool) (t : Tables) (start stop : Option Int)
    (withDuration : Bool) (k : Http.SortKey) : List Event :=
  (sortedEvents f showHidden t (baseHolds f showHidden) k.isDescending k.column).filter
    fun e => InWindow start stop withDuration e

section
variable {t : Tables} (ht : t.Sound) (f : Filters) (showHidden : Bool) (start stop : Option Int)
  (withDuration : Bool)
include ht

theorem mem_windowEvents_iff (k : Http.SortKey) {e : Event} :
    e ∈ windowEvents f showHidden t start stop withDuration k ↔
      Listed f showHidden t e ∧ InWindow start stop withDuration e := by
  rw [windowEvents, List.mem_filter, mem_sortedEvents_iff ht, decide_eq_true_eq]

theorem nodup_windowEvents (k : Http.SortKey) :
    (windowEvents f showHidden t start stop withDuration k).Nodup :=
  (List.Nodup.of_map _ (nodup_id_sortedEvents ht ..)).filter _

theorem pairwise_windowEvents (k : Http.SortKey) :
    (windowEvents f showHidden t start stop withDuration k).Pairwise
      fun a b => (a.compareToward k.isDescending k.column b).isLE :=
  (pairwise_sortedEvents ht ..).filter _

theorem windowEvents_perm (k k' : Http.SortKey) :
    (windowEvents f showHidden t start stop withDuration k).Perm
      (windowEvents f showHidden t start stop withDuration k') :=
  (sortedEvents_perm_sortedEvents ht ..).filter _

theorem windowEvents_reverse {k k' : Http.SortKey} (h : k'.label = "-" ++ k.label) :
    windowEvents f showHidden t start stop withDuration k'
      = (windowEvents f showHidden t start stop withDuration k).reverse := by
  obtain ⟨hk, hk', hcolumn⟩ := Http.SortKey.of_label_eq h
  rw [windowEvents, windowEvents, hk, hk', hcolumn, sortedEvents_descending ht, List.filter_reverse]

end

end Listing

namespace Store

open Listing

section
variable {values : ByDimension Value} {f : Filters} (hf : Filters.coerce values = .ok f)
  {o : Options} (hconditions : o.conditions = []) (hoffset : o.offset = none)
  (hlimit : o.limit = none) (hparams : Window.Unnamed o.params) (start stop : Option Int)
  (withDuration : Bool) {c : Connection} {t : Tables} (ht : c.tables = some t) (hsound : t.Sound)
include hf hconditions hoffset hlimit hparams ht hsound

omit hconditions hparams ht in
theorem run_ordered_of_allNone (hactive : f.allNone = true) (k : Http.SortKey) :
    (eventsInWindow values (.between start stop withDuration) (o.ordered k)).run c
      = (.ok (windowEvents f o.showHidden t start stop withDuration k), c) := by
  rw [eventsInWindow_of_allNone hf (o := o.ordered k) hoffset hlimit hactive, windowEvents,
    sortedEvents_of_allNone hsound hactive]
  rfl

theorem run_ordered (hc : c.failed = false) (hfits : f.Fits)
    (hbounds : ∀ name n, Window.Binds start stop name n → Cell.fits n = true) (k : Http.SortKey) :
    (eventsInWindow values (.between start stop withDuration) (o.ordered k)).run c
      = (.ok (windowEvents f o.showHidden t start stop withDuration k), c) := by
  have hreads : (Statement.mk f (o.ordered k)).Reads (fun _ => [])
      (orderBy k.isDescending k.column) := Statement.reads_clause (o := o.ordered k) hconditions rfl
  cases hactive : f.allNone with
  | true => exact run_ordered_of_allNone hf hoffset hlimit start stop withDuration hsound hactive k
  | false =>
    exact (run_window_iff hf (o := o.ordered k) hoffset hlimit hconditions ht hsound hactive
      (fun name n h => hparams.of_binds h) hbounds withDuration _).2 ⟨hc, hfits, _, hreads, rfl⟩

/-- **In all orders** a listing fails alike, or it sorts one and the same events. -/
theorem run_ordered_cases :
    (∃ failure, ∀ k, (eventsInWindow values (.between start stop withDuration) (o.ordered k)).run c
      = (.error failure, c)) ∨
    ∀ k, (eventsInWindow values (.between start stop withDuration) (o.ordered k)).run c
      = (.ok (windowEvents f o.showHidden t start stop withDuration k), c) := by
  cases hactive : f.allNone with
  | true =>
    exact .inr (run_ordered_of_allNone hf hoffset hlimit start stop withDuration hsound hactive)
  | false =>
    have hpage : ∀ k, checkPage ((Window.between start stop withDuration).restrict (o.ordered k))
        = .ok () := fun k => checkPage_window (o := o.ordered k) hoffset hlimit _
    cases hc : c.failed with
    | true =>
      refine .inl ⟨.query .pendingRollback, fun k => ?_⟩
      rw [eventsInWindow, rawEvents_eq_query hf hactive (hpage k)
        (orphan?_window (o := o.ordered k) hconditions), run_query_of_failed _ hc]
    | false =>
      by_cases hfits : IntegersFit f o start stop
      · exact .inr fun k => run_ordered hf hconditions hoffset hlimit hparams start stop withDuration
          ht hsound hc hfits.ids hfits.bounds k
      · refine .inl ⟨.tooWide, fun k => ?_⟩
        refine (run_window_eq_tooWide_iff (o := o.ordered k) hconditions
          (fun name n h => hparams.of_binds h) withDuration).2
          ⟨hc, ?_, hpage k, f, hf, hactive, ?_, ?_⟩
        · rw [ht]
          rfl
        · exact ⟨_, Statement.reads_clause (o := o.ordered k) hconditions rfl⟩
        · exact fun h => hfits ⟨h.ids, h.page, h.bounds⟩

/-- **The orders of a listing.** In a window or outside one, and without a page, the list in an
order with a minus in front of its name is the reverse of the list in the order without; if there is
no such list, both fail alike. The lists in all orders are permutations of each other. Each has the
events that the rule of the listing and the window ask for, once and sorted by its column, then by
id. In a usable session there are these lists if there are cells for the ids and the bounds. -/
theorem reversed_orders :
    (∀ k k' : Http.SortKey, k'.label = "-" ++ k.label → ∀ result,
      (eventsInWindow values (.between start stop withDuration) (o.ordered k)).run c = (result, c) →
        (eventsInWindow values (.between start stop withDuration) (o.ordered k')).run c
          = (result.map List.reverse, c)) ∧
    (∀ k events,
      (eventsInWindow values (.between start stop withDuration) (o.ordered k)).run c
          = (.ok events, c) →
        (∀ k', ∃ events',
          (eventsInWindow values (.between start stop withDuration) (o.ordered k')).run c
            = (.ok events', c) ∧ events'.Perm events) ∧
        (∀ e, e ∈ events ↔ Listed f o.showHidden t e ∧ InWindow start stop withDuration e) ∧
        events.Nodup ∧
        events.Pairwise fun a b => (a.compareToward k.isDescending k.column b).isLE) ∧
    (c.failed = false → f.Fits →
      (∀ name n, Window.Binds start stop name n → Cell.fits n = true) → ∀ k, ∃ events,
        (eventsInWindow values (.between start stop withDuration) (o.ordered k)).run c
          = (.ok events, c)) := by
  have hcases := run_ordered_cases hf hconditions hoffset hlimit hparams start stop withDuration ht
    hsound
  refine ⟨fun k k' h result hresult => ?_, fun k events hevents => ?_, fun hc hfits hbounds k => ?_⟩
  · rcases hcases with ⟨failure, hfailure⟩ | hlists
    · cases (hfailure k).symm.trans hresult
      exact hfailure k'
    · cases (hlists k).symm.trans hresult
      rw [hlists k', windowEvents_reverse hsound _ _ _ _ _ h]
      rfl
  · rcases hcases with ⟨failure, hfailure⟩ | hlists
    · cases (hfailure k).symm.trans hevents
    · cases (hlists k).symm.trans hevents
      exact ⟨fun k' => ⟨_, hlists k', windowEvents_perm hsound ..⟩,
        fun e => mem_windowEvents_iff hsound .., nodup_windowEvents hsound ..,
        pairwise_windowEvents hsound ..⟩
  · exact ⟨_, run_ordered hf hconditions hoffset hlimit hparams start stop withDuration ht hsound hc
      hfits hbounds k⟩

end

/-- Events without a time to sort by are turned around as well. -/
theorem reversed_orders_of_timetable :
    ∃ events, (eventsInWindow ⟨.int 4, .null, .int 5, .null⟩ (.between none (some 600) true)
          (Options.default.ordered .timesort)).run (.opened (some timetable))
        = (.ok events, .opened (some timetable)) ∧
      (eventsInWindow ⟨.int 4, .null, .int 5, .null⟩ (.between none (some 600) true)
          (Options.default.ordered .timesortDescending)).run (.opened (some timetable))
        = (.ok events.reverse, .opened (some timetable)) ∧
      extension ∈ events ∧ everlasting ∈ events := by
  have hcoerce : Filters.coerce ⟨.int 4, .null, .int 5, .null⟩
      = .ok ⟨.ofIds [4], .nobody, .ofIds [5], .nobody⟩ := rfl
  have hsound : timetable.Sound := by decide
  have hbounds : ∀ name n, Window.Binds none (some 600) name n → Cell.fits n = true := by
    rintro name n (⟨-, ⟨⟩⟩ | ⟨-, ⟨⟩⟩)
    decide
  obtain ⟨hreverse, hlist, hexists⟩ := reversed_orders hcoerce (o := .default) rfl rfl rfl ⟨rfl, rfl⟩
    none (some 600) true (c := .opened (some timetable)) rfl hsound
  obtain ⟨events, hevents⟩ := hexists rfl (by decide) hbounds .timesort
  have hmem := (hlist .timesort events hevents).2.1
  refine ⟨events, hevents, hreverse .timesort .timesortDescending rfl _ hevents, ?_, ?_⟩
  · exact (hmem _).2 ⟨⟨by simp [timetable], by decide, by decide, by decide⟩, by decide⟩
  · exact (hmem _).2 ⟨⟨by simp [timetable], by decide, by decide, by decide⟩, by decide⟩

end Store

end EventCalendar
