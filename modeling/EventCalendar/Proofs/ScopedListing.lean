import EventCalendar.Proofs.Noninterference

/-!
# Listings of one dimension

A listing without conditions has no event that its rule does not list (`listed_of_run`), so one with
a single active dimension has events of this dimension only, as long as its ids leave out zero: zero
is the key of an event outside the dimension, but counts as an id like any other.

* `Dimension.admits_everyone_iff_scope`, `Dimension.Admits.everyone_iff`: an admitted event belongs
  to the dimension exactly if its key is set.
* `scope_of_run`: what is listed of one dimension.
* `keepsScope_iff`: **when a listing of one dimension keeps to it**.
-/

set_option autoImplicit false

namespace EventCalendar

/-! ## Events of a dimension -/

theorem Dimension.admits_everyone_iff_scope {e : Event} (he : e.Keyed) (d : Dimension) :
    d.Admits .everyone e ↔ e.scope = d.scope := by
  rw [Dimension.admits_iff_scope he (by decide) d]
  simp [FilterSpec.everyone, FilterSpec.isNone]

theorem Dimension.Admits.everyone_iff {f : FilterSpec} {e : Event} {d : Dimension}
    (h : d.Admits f e) : d.Admits .everyone e ↔ e.key d ≠ 0 := by
  refine ⟨fun hall => hall.wants, fun hkey => ?_⟩
  have hwants : FilterSpec.everyone.Wants (e.key d) := hkey
  cases d with
  | users => exact ⟨hwants, h.2⟩
  | groups => exact hwants
  | courses => exact ⟨h.1, hwants⟩
  | categories => exact ⟨h.1, h.2.1, hwants⟩

namespace Listing

/-- A statement without conditions lists no event that the rule does not list, in whatever order and
on whatever page. -/
theorem Statement.listed_of_execute {s : Statement} (hnil : s.conditions = []) {t : Tables}
    (hsound : t.Sound) {events : List Event} (h : s.execute (some t) = .ok events) {e : Event}
    (he : e ∈ events) : s.filters.Fits ∧ Listed s.filters s.options.showHidden t e := by
  have hnone : ∀ text ∈ s.conditions, ∃ tokens,
      conditionTokens? s.options.params text = some tokens ∧ Sql.Alternatives tokens [] ∧
        tokens.any Sql.Token.isUnmatched = false := by
    rw [hnil]
    exact List.forall_mem_nil _
  obtain ⟨order, hreads⟩ := reads_of_execute hnone h
  obtain ⟨-, ⟨hfits, -, -⟩, rfl⟩ := hreads.execute_eq_ok_iff.1 h
  obtain ⟨row, hrow, rfl⟩ := List.mem_map.1 (mem_of_mem_cut he)
  obtain ⟨hjoined, hselected⟩ := List.mem_filter.1 ((List.mergeSort_perm _ _).mem_iff.1 hrow)
  rw [hnil, List.map_nil, anyHolds_pasted_nil] at hselected
  rw [joinedRows_eq hsound] at hjoined
  obtain ⟨e, hbest, rfl⟩ := List.mem_map.1 hjoined
  obtain ⟨hstored, hbest⟩ := List.mem_filter.1 hbest
  exact ⟨hfits, (listed_iff hsound _ _ e).2 ⟨hstored, by simpa using hbest, hselected⟩⟩

end Listing

namespace Store

open Listing

/-- **A listing without conditions** has no event that its rule does not list, and none at all
unless there are cells for its ids. -/
theorem listed_of_run {values : ByDimension Value} {f : Filters}
    (hf : Filters.coerce values = .ok f) {o : Options} (hconditions : o.conditions = [])
    {c : Connection} {t : Tables} (ht : c.tables = some t) (hsound : t.Sound) {events : List Event}
    (h : (rawEvents values o).run c = (.ok events, c)) {e : Event} (he : e ∈ events) :
    f.Fits ∧ Listed f o.showHidden t e := by
  rcases exists_execute_of_run h with rfl | ⟨s, hplan, hexecute⟩
  · cases he
  · rw [eq_of_plan_eq_some hf hplan, ht] at hexecute
    exact Statement.listed_of_execute (s := ⟨f, o⟩) (Statement.conditions_eq_nil hconditions)
      hsound hexecute he

section
variable {values : ByDimension Value} {f : Filters} (hf : Filters.coerce values = .ok f)
  {d : Dimension} (hspecific : (f.get d).mode = .specific)
  (honly : ∀ d', d' ≠ d → (f.get d').isNone = true)
include hf hspecific honly

/-- What is listed of one dimension has one of its ids as its key, and belongs to the dimension
exactly if this key is not zero. -/
theorem scope_of_run {o : Options} (hconditions : o.conditions = []) {c : Connection} {t : Tables}
    (ht : c.tables = some t) (hsound : t.Sound) {events : List Event}
    (h : (rawEvents values o).run c = (.ok events, c)) {e : Event} (he : e ∈ events) :
    f.Fits ∧ e.key d ∈ (f.get d).ids.toList ∧ (e.scope = d.scope ↔ e.key d ≠ 0) ∧
      (SatisfiesDimension (ByDimension.replicate .everyone) (.ofEvent e) d ↔ e.key d ≠ 0) := by
  obtain ⟨hfits, hlisted⟩ := listed_of_run hf hconditions ht hsound h he
  have hkeyed : (Row.ofEvent e).event.Keyed := (hsound.events e hlisted.stored).keyed
  obtain ⟨d', hadmits⟩ := hlisted.competes.admitted
  obtain rfl : d' = d := by
    by_contra hne
    exact FilterSpec.not_wants_of_isNone (honly d' hne) _ hadmits.wants
  have hkey : e.key d' ∈ (f.get d').ids.toList := by
    have hwants := hadmits.wants
    unfold FilterSpec.Wants at hwants
    rwa [hspecific] at hwants
  refine ⟨hfits, hkey, ?_, ?_⟩
  · exact (Dimension.admits_everyone_iff_scope hkeyed d').symm.trans hadmits.everyone_iff
  · rw [satisfiesDimension_iff hkeyed, ByDimension.get_replicate]
    exact hadmits.everyone_iff

end

/-- Whatever the tables, the order and the page, a listing without conditions has events of the
dimension only, which are also matched when all of the dimension are asked for. -/
def KeepsScope (values : ByDimension Value) (d : Dimension) : Prop :=
  ∀ o : Options, o.conditions = [] → ∀ (c : Connection) (t : Tables), c.tables = some t → t.Sound →
    ∀ events, (rawEvents values o).run c = (.ok events, c) → ∀ e ∈ events,
      e.scope = d.scope ∧ SatisfiesDimension (ByDimension.replicate .everyone) (.ofEvent e) d

def openDay : Event := .given 1 [(.visible, .int 1)]

theorem listed_openDay {f : Filters} {d : Dimension} (hspecific : (f.get d).mode = .specific)
    (hzero : 0 ∈ (f.get d).ids.toList) : Listed f false ⟨[openDay], []⟩ openDay := by
  have hwants : (f.get d).Wants 0 := by
    unfold FilterSpec.Wants
    rw [hspecific]
    exact hzero
  refine ⟨List.mem_singleton.2 rfl, ⟨⟨d, ?_⟩, fun _ => rfl⟩, by decide, ?_⟩
  · cases d with
    | users => exact ⟨hwants, rfl, rfl, rfl⟩
    | groups => exact hwants
    | courses => exact ⟨rfl, hwants⟩
    | categories => exact ⟨rfl, rfl, hwants⟩
  · intro e he _ _
    rw [List.mem_singleton.1 he]
    exact Cell.Outranks.irrefl _

/-- **A listing of one dimension keeps to it** exactly if its ids leave out zero, or one of them is
too wide for a cell. Of its events just those belong to the dimension, and are matched when all are
asked for, whose key is not zero. -/
theorem keepsScope_iff {values : ByDimension Value} {f : Filters}
    (hf : Filters.coerce values = .ok f) {d : Dimension} (hspecific : (f.get d).mode = .specific)
    (honly : ∀ d', d' ≠ d → (f.get d').isNone = true) :
    (KeepsScope values d ↔ (f.Fits → 0 ∉ (f.get d).ids.toList)) ∧
    ∀ o : Options, o.conditions = [] → ∀ (c : Connection) (t : Tables), c.tables = some t →
      t.Sound → ∀ events, (rawEvents values o).run c = (.ok events, c) → ∀ e ∈ events,
        (e.scope = d.scope ↔ e.key d ≠ 0) ∧
        (SatisfiesDimension (ByDimension.replicate .everyone) (.ofEvent e) d ↔ e.key d ≠ 0) := by
  refine ⟨⟨fun hkeeps hfits hzero => ?_, fun hzero => ?_⟩, ?_⟩
  · have hsound : Tables.Sound ⟨[openDay], []⟩ := by decide
    have hrun := run_rawEvents_of_fits hf hfits (c := .opened (some ⟨[openDay], []⟩)) rfl rfl
      hsound false
    have hlisted := (mem_sortedEvents_iff hsound f false false .timestart).2
      (listed_openDay hspecific hzero)
    have hscope := (hkeeps _ rfl _ _ rfl hsound _ hrun _ hlisted).1
    cases d <;> exact absurd hscope (by decide)
  · intro o hconditions c t ht hsound events h e he
    obtain ⟨hfits, hkey, hscope, hmatched⟩ :=
      scope_of_run hf hspecific honly hconditions ht hsound h he
    have hne : e.key d ≠ 0 := by
      intro h0
      rw [h0] at hkey
      exact hzero hfits hkey
    exact ⟨hscope.2 hne, hmatched.2 hne⟩
  · intro o hconditions c t ht hsound events h e he
    exact (scope_of_run hf hspecific honly hconditions ht hsound h he).2.2

theorem keepsScope_course : KeepsScope ⟨.null, .null, .int 5, .null⟩ .courses := by
  have hcoerce : Filters.coerce ⟨.null, .null, .int 5, .null⟩
      = .ok ⟨.nobody, .nobody, .ofIds [5], .nobody⟩ := rfl
  refine (keepsScope_iff hcoerce rfl fun d hd => ?_).1.2 fun _ => by decide
  cases d <;> first | rfl | exact absurd rfl hd

def appointment : Event := .given 1 [(.userid, .int 4), (.visible, .int 1)]

/-- A listing of the course zero has the appointment of a user. -/
theorem rawEvents_of_zero_course :
    ∃ events, (rawEvents ⟨.null, .null, .list [.int 0], .null⟩ .default).run
        (.opened (some ⟨[appointment], []⟩)) = (.ok events, .opened (some ⟨[appointment], []⟩)) ∧
      appointment ∈ events ∧ appointment.scope = .user ∧
      ¬ SatisfiesDimension (ByDimension.replicate .everyone) (.ofEvent appointment) .courses := by
  have hcoerce : Filters.coerce ⟨.null, .null, .list [.int 0], .null⟩
      = .ok ⟨.nobody, .nobody, .ofIds [0], .nobody⟩ := rfl
  have hsound : Tables.Sound ⟨[appointment], []⟩ := by decide
  have hkeyed : (Row.ofEvent appointment).event.Keyed :=
    (hsound.events appointment (List.mem_singleton.2 rfl)).keyed
  refine ⟨_, run_rawEvents_of_fits hcoerce (by decide) rfl rfl hsound false, ?_, by decide, ?_⟩
  · exact (mem_sortedEvents_iff hsound _ false false .timestart).2
      ⟨List.mem_singleton.2 rfl, by decide, by decide, by decide⟩
  · rw [satisfiesDimension_iff hkeyed]
    decide

end Store

end EventCalendar
