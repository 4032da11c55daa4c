import EventCalendar.Proofs.Retrieval

/-!
# The events of one activity

Of the events of an activity that compete, those with its best priority are listed:

* `exists_unrivalled`: there is always one that no other outranks, so no activity is lost.
* `Listed.priority_eq`: those that are listed have one priority.
* `Listed.of_priority_eq`: all events that compete with this priority are listed.

`rawEvents_bestOfActivity` says this of what a session lists.
-/

set_option autoImplicit false

namespace EventCalendar

namespace Listing

/-! ## Best events -/

theorem exists_leastPriority {es : List Event} (hes : ∀ e ∈ es, e.WellTyped) {e : Event}
    (he : e ∈ es) : ∃ e' ∈ es, e'.get .priority = leastPriority es := by
  have hpriority : ∀ q ∈ es.map (·.get .priority), q.IsPriority := by
    intro q hq
    obtain ⟨e', he', rfl⟩ := List.mem_map.1 hq
    exact (hes e' he').isPriority
  obtain ⟨hleast, hnone⟩ := foldl_lesser_spec (.inl rfl) hpriority
  rcases List.mem_cons.1 hleast with h | h
  · -- Null is the least priority only where there is no other.
    refine ⟨e, he, ?_⟩
    have hbest := hnone _ (List.mem_cons_of_mem _ (List.mem_map_of_mem he))
    rw [h] at hbest
    rw [leastPriority, h]
    rcases (hes e he).isPriority with hnull | ⟨i, hi⟩
    · exact hnull
    · rw [hi] at hbest
      exact absurd trivial hbest
  · obtain ⟨e', he', h⟩ := List.mem_map.1 h
    exact ⟨e', he', h⟩

theorem ModuleShown.of_activity {t : Tables} {e e' : Event} (h : ModuleShown t e)
    (ha : e'.activity = e.activity) : ModuleShown t e' := by
  intro m hm hname
  have hmodule : e'.get .modulename = e.get .modulename := congrArg Activity.modulename ha
  exact h m hm (hname.trans hmodule)

section
variable {f : Filters} {showHidden : Bool} {t : Tables} (ht : t.Sound)
include ht

/-- **Some event of an activity is unrivalled** if one competes. -/
theorem exists_unrivalled {e : Event} (he : e ∈ t.events) (hc : Competes f showHidden e) :
    ∃ e' ∈ t.events, Competes f showHidden e' ∧ e'.activity = e.activity ∧
      Unrivalled f showHidden t e' := by
  have hgroup : e ∈ (candidates f showHidden t.events).filter fun e' => e'.activity = e.activity :=
    List.mem_filter.2 ⟨(mem_candidates ht f showHidden he).2 hc, by simp⟩
  have htyped : ∀ e' ∈ (candidates f showHidden t.events).filter fun e' => e'.activity = e.activity,
      e'.WellTyped :=
    fun e' he' => candidate_wellTyped ht f showHidden (List.mem_of_mem_filter he')
  obtain ⟨best, hbest, hleast⟩ := exists_leastPriority htyped hgroup
  obtain ⟨hcand, ha⟩ := List.mem_filter.1 hbest
  have hstored : best ∈ t.events := List.mem_of_mem_filter hcand
  have ha : best.activity = e.activity := by simpa using ha
  refine ⟨best, hstored, (mem_candidates ht f showHidden hstored).1 hcand, ha, ?_⟩
  intro rival hrival hrc hra
  refine (eq_leastPriority_iff htyped hbest).1 hleast rival (List.mem_filter.2 ⟨?_, ?_⟩)
  · exact (mem_candidates ht f showHidden hrival).2 hrc
  · simpa using hra.trans ha

/-- **Listed events of one activity have one priority.** -/
theorem Listed.priority_eq {e e' : Event} (h : Listed f showHidden t e)
    (h' : Listed f showHidden t e') (ha : e'.activity = e.activity) :
    e'.get .priority = e.get .priority :=
  Cell.eq_of_not_outranks (ht.events e' h'.stored).isPriority (ht.events e h.stored).isPriority
    (h.unrivalled e' h'.stored h'.competes ha) (h'.unrivalled e h.stored h.competes ha.symm)

omit ht in
/-- **All events that compete with this priority are listed.** -/
theorem Listed.of_priority_eq {e e' : Event} (h : Listed f showHidden t e) (hstored : e' ∈ t.events)
    (hc : Competes f showHidden e') (ha : e'.activity = e.activity)
    (hp : e'.get .priority = e.get .priority) : Listed f showHidden t e' := by
  refine ⟨hstored, hc, h.moduleShown.of_activity ha, fun rival hrival hrc hra => ?_⟩
  rw [hp]
  exact h.unrivalled rival hrival hrc (hra.trans ha)

theorem Listed.priority_eq_override {e e' : Event} (h' : Listed f showHidden t e')
    (hstored : e ∈ t.events) (hc : Competes f showHidden e) (ha : e'.activity = e.activity)
    (hp : e.get .priority = .int userOverridePriority)
    (hnegative : ∀ i, e'.get .priority = .int i → 0 ≤ i) :
    e'.get .priority = .int userOverridePriority := by
  have hbest := h'.unrivalled e hstored hc ha.symm
  rw [hp] at hbest
  rcases (ht.events e' h'.stored).isPriority with hnull | ⟨i, hi⟩
  · rw [hnull] at hbest
    exact absurd trivial hbest
  · have hi0 := hnegative i hi
    rw [hi, Cell.Outranks, userOverridePriority] at hbest
    rw [hi, userOverridePriority, show i = 0 by omega]

end

end Listing

namespace Store

open Listing

/-- **No activity is lost.** A listing has events of just those activities of which an event
competes whose module is not marked invisible; of each activity it has all events that compete with
one priority, which is the user's own if there is one with it and none below. Only an id that is too
wide for a cell makes it fail. -/
theorem rawEvents_bestOfActivity {values : ByDimension Value} {f : Filters}
    (hf : Filters.coerce values = .ok f) {c : Connection} (hc : c.failed = false) {t : Tables}
    (ht : c.tables = some t) (hsound : t.Sound) (showHidden : Bool) :
    (f.Fits → ∃ events,
      (rawEvents values { Options.default with showHidden }).run c = (.ok events, c) ∧
      (∀ a, (∃ e ∈ events, e.activity = a) ↔
        ∃ e ∈ t.events, Competes f showHidden e ∧ ModuleShown t e ∧ e.activity = a) ∧
      (∀ e ∈ events, ∀ e', e'.activity = e.activity →
        (e' ∈ events ↔
          e' ∈ t.events ∧ Competes f showHidden e' ∧ e'.get .priority = e.get .priority)) ∧
      (∀ e ∈ t.events, Competes f showHidden e → e.get .priority = .int userOverridePriority →
        (∀ e' ∈ t.events, Competes f showHidden e' → e'.activity = e.activity →
          ∀ i, e'.get .priority = .int i → 0 ≤ i) →
        ∀ e' ∈ events, e'.activity = e.activity →
          e'.get .priority = .int userOverridePriority)) ∧
    (¬ f.Fits →
      (rawEvents values { Options.default with showHidden }).run c = (.error .tooWide, c)) := by
  refine ⟨fun hfits => ?_, fun hfits => run_rawEvents_of_not_fits hf hfits hc ht showHidden⟩
  have hmem := fun e => mem_sortedEvents_iff hsound f showHidden false .timestart (e := e)
  refine ⟨_, run_rawEvents_of_fits hf hfits hc ht hsound showHidden, fun a => ?_, ?_, ?_⟩
  · constructor
    · intro h
      obtain ⟨e, he, ha⟩ := h
      have hlisted := (hmem e).1 he
      exact ⟨e, hlisted.stored, hlisted.competes, hlisted.moduleShown, ha⟩
    · intro h
      obtain ⟨e, hstored, hcompetes, hshown, rfl⟩ := h
      obtain ⟨best, hbest, hbc, ha, hunrivalled⟩ := exists_unrivalled hsound hstored hcompetes
      exact ⟨best, (hmem best).2 ⟨hbest, hbc, hshown.of_activity ha, hunrivalled⟩, ha⟩
  · intro e he e' ha
    have hlisted := (hmem e).1 he
    constructor
    · intro he'
      have hlisted' := (hmem e').1 he'
      exact ⟨hlisted'.stored, hlisted'.competes, hlisted.priority_eq hsound hlisted' ha⟩
    · intro h
      obtain ⟨hstored, hcompetes, hp⟩ := h
      exact (hmem e').2 (hlisted.of_priority_eq hstored hcompetes ha hp)
  · intro e hstored hcompetes hp hnegative e' he' ha
    have hlisted := (hmem e').1 he'
    exact hlisted.priority_eq_override hsound hstored hcompetes ha hp
      (hnegative e' hlisted.stored hlisted.competes ha)

def deadline : Event :=
  .given 1 [(.courseid, .int 5), (.modulename, .text "assign"), (.visible, .int 1),
    (.timestart, .int 100)]

def extension : Event :=
  .given 2 [(.userid, .int 4), (.modulename, .text "assign"), (.visible, .int 1),
    (.timestart, .int 500), (.priority, .int userOverridePriority)]

/-- An event that ends later than any integer of a cell. -/
def everlasting : Event :=
  .given 3 [(.courseid, .int 5), (.visible, .int 1), (.timestart, .int 20),
    (.timeduration, .int 9223372036854775807)]

def timetable : Tables := ⟨[deadline, extension, everlasting], []⟩

/-- With the user's own deadline listed the task is not lost, and no other deadline is listed. -/
theorem rawEvents_of_extension :
    ∃ events, (rawEvents ⟨.int 4, .null, .int 5, .null⟩ .default).run (.opened (some timetable))
        = (.ok events, .opened (some timetable)) ∧
      extension ∈ events ∧ ∀ e ∈ events, e.activity = extension.activity →
        e.get .priority = .int userOverridePriority := by
  have hcoerce : Filters.coerce ⟨.int 4, .null, .int 5, .null⟩
      = .ok ⟨.ofIds [4], .nobody, .ofIds [5], .nobody⟩ := rfl
  obtain ⟨events, hrun, hactivities, hsame, hoverride⟩ := (rawEvents_bestOfActivity hcoerce
    (c := .opened (some timetable)) rfl rfl (by decide) false).1 (by decide)
  have hstored : extension ∈ timetable.events := by simp [timetable]
  have hcompetes : Competes ⟨.ofIds [4], .nobody, .ofIds [5], .nobody⟩ false extension := by decide
  have hpriority : ∀ e ∈ events, e.activity = extension.activity →
      e.get .priority = .int userOverridePriority := by
    refine hoverride extension hstored hcompetes rfl fun e he _ _ i hi => ?_
    have hcases : e = deadline ∨ e = extension ∨ e = everlasting := by simpa [timetable] using he
    rcases hcases with rfl | rfl | rfl
    · cases (show Cell.null = .int i from hi)
    · cases (show Cell.int 0 = .int i from hi)
      exact Int.le_refl 0
    · cases (show Cell.null = .int i from hi)
  obtain ⟨e, he, ha⟩ :=
    (hactivities extension.activity).2 ⟨extension, hstored, hcompetes, by decide, rfl⟩
  refine ⟨events, hrun, (hsame e he extension ha.symm).2 ⟨hstored, hcompetes, ?_⟩, hpriority⟩
  exact (hpriority e he ha).symm

/-- An id that is too wide for a cell makes a listing fail that events qualify for. -/
theorem rawEvents_of_wide_course :
    deadline ∈ timetable.events ∧
      Competes ⟨.nobody, .nobody, .ofIds [5, 9223372036854775808], .nobody⟩ false deadline ∧
      ModuleShown timetable deadline ∧
      (rawEvents ⟨.null, .null, .list [.int 5, .int 9223372036854775808], .null⟩ .default).run
        (.opened (some timetable)) = (.error .tooWide, .opened (some timetable)) := by
  have hcoerce : Filters.coerce ⟨.null, .null, .list [.int 5, .int 9223372036854775808], .null⟩
      = .ok ⟨.nobody, .nobody, .ofIds [5, 9223372036854775808], .nobody⟩ := rfl
  refine ⟨by simp [timetable], by decide, by decide, ?_⟩
  exact run_rawEvents_of_not_fits hcoerce (by decide) rfl rfl false

end Store

end EventCalendar
