import EventCalendar.Proofs.BestOfActivity

/-!
# Filters put together

Two quadruples of filters are joined dimension by dimension: `FilterSpec.join?` asks for what one of
two filters asks for, where that is a filter again.

* `Filters.Joins.admits_iff`, `Filters.Joins.fits_iff`: joined filters admit what one of the two
  admits, and need cells for the ids of both.
* `unrivalled_joins_iff`: an event is unrivalled exactly if it is so for both.
* `Listed.of_joins`, `Listed.joins_iff`: **what joined filters list** is listed by one of the two,
  and what one of them lists goes missing only where an event of the other outranks it.
-/

set_option autoImplicit false

namespace EventCalendar

/-! ## Joining filters -/

/-- The filter for what one of two filters asks for; all entities and single ids are not joined. -/
def FilterSpec.join? (f g : FilterSpec) : Option FilterSpec :=
  match f.mode, g.mode with
  | _, .none => some f
  | .none, _ => some g
  | .all, .all => some .everyone
  | .specific, .specific => some (.ofIds (f.ids.toList ++ g.ids.toList))
  | _, _ => none

section
variable {f g h : FilterSpec} (hjoin : f.join? g = some h)
include hjoin

theorem FilterSpec.wants_join_iff (k : Int) : h.Wants k ↔ f.Wants k ∨ g.Wants k := by
  obtain ⟨fm, fids⟩ := f
  obtain ⟨gm, gids⟩ := g
  cases fm <;> cases gm <;> cases hjoin <;>
    simp [Wants, everyone, ofIds, IdSet.mem_toList_ofList]

theorem FilterSpec.fits_join_iff :
    (h.mode = .specific → ∀ i ∈ h.ids.toList, Cell.fits i = true) ↔
      (f.mode = .specific → ∀ i ∈ f.ids.toList, Cell.fits i = true) ∧
        (g.mode = .specific → ∀ i ∈ g.ids.toList, Cell.fits i = true) := by
  obtain ⟨fm, fids⟩ := f
  obtain ⟨gm, gids⟩ := g
  cases fm <;> cases gm <;> cases hjoin <;>
    simp [everyone, ofIds, IdSet.mem_toList_ofList, or_imp, forall_and]

theorem Dimension.admits_join_iff (d : Dimension) (e : Event) :
    d.Admits h e ↔ d.Admits f e ∨ d.Admits g e := by
  cases d <;> simp only [Admits, FilterSpec.wants_join_iff hjoin] <;> grind

end

/-- Each filter of the third quadruple joins those of the two others. -/
def Filters.Joins (F G H : Filters) : Prop := ∀ d, (F.get d).join? (G.get d) = some (H.get d)

namespace Filters.Joins

variable {F G H : Filters} (hjoin : F.Joins G H)
include hjoin

theorem admits_iff (e : Event) : H.Admits e ↔ F.Admits e ∨ G.Admits e := by
  simp only [Filters.Admits, Dimension.admits_join_iff (hjoin _), exists_or]

theorem fits_iff : H.Fits ↔ F.Fits ∧ G.Fits := by
  simp only [Filters.Fits, FilterSpec.fits_join_iff (hjoin _), forall_and]

end Filters.Joins

namespace Listing

variable {F G H : Filters} {showHidden : Bool} {t : Tables} {e : Event}

theorem not_unrivalled_iff :
    ¬ Unrivalled F showHidden t e ↔
      ∃ e' ∈ t.events, Competes F showHidden e' ∧ e'.activity = e.activity ∧
        (e'.get .priority).Outranks (e.get .priority) := by
  simp [Unrivalled]

section
variable (hjoin : F.Joins G H)
include hjoin

theorem competes_joins_iff :
    Competes H showHidden e ↔ Competes F showHidden e ∨ Competes G showHidden e := by
  constructor
  · intro h
    rcases (hjoin.admits_iff e).1 h.admitted with ha | ha
    · exact .inl ⟨ha, h.visible⟩
    · exact .inr ⟨ha, h.visible⟩
  · intro h
    rcases h with h | h
    · exact ⟨(hjoin.admits_iff e).2 (.inl h.admitted), h.visible⟩
    · exact ⟨(hjoin.admits_iff e).2 (.inr h.admitted), h.visible⟩

/-- **An event is unrivalled** in what joined filters admit exactly if it is so for both. -/
theorem unrivalled_joins_iff :
    Unrivalled H showHidden t e ↔ Unrivalled F showHidden t e ∧ Unrivalled G showHidden t e := by
  simp only [Unrivalled, competes_joins_iff hjoin, or_imp, forall_and]

theorem Listed.of_joins (h : Listed H showHidden t e) :
    Listed F showHidden t e ∨ Listed G showHidden t e := by
  obtain ⟨hF, hG⟩ := (unrivalled_joins_iff hjoin).1 h.unrivalled
  rcases (competes_joins_iff hjoin).1 h.competes with hc | hc
  · exact .inl ⟨h.stored, hc, h.moduleShown, hF⟩
  · exact .inr ⟨h.stored, hc, h.moduleShown, hG⟩

/-- What the one lists is listed unless it has a rival of the other. -/
theorem Listed.joins_iff (h : Listed F showHidden t e) :
    Listed H showHidden t e ↔ Unrivalled G showHidden t e := by
  constructor
  · intro hH
    exact ((unrivalled_joins_iff hjoin).1 hH.unrivalled).2
  · intro hG
    exact ⟨h.stored, (competes_joins_iff hjoin).2 (.inl h.competes), h.moduleShown,
      (unrivalled_joins_iff hjoin).2 ⟨h.unrivalled, hG⟩⟩

theorem listed_joins_iff_of_null
    (hnull : ∀ e' ∈ t.events, Competes H showHidden e' → e'.get .priority = .null) :
    Listed H showHidden t e ↔ Listed F showHidden t e ∨ Listed G showHidden t e := by
  have hunrivalled : Unrivalled H showHidden t e := by
    intro e' hstored hcompetes _
    rw [hnull e' hstored hcompetes]
    exact Cell.not_null_outranks _
  refine ⟨fun h => h.of_joins hjoin, fun h => ?_⟩
  rcases h with h | h
  · exact ⟨h.stored, (competes_joins_iff hjoin).2 (.inl h.competes), h.moduleShown, hunrivalled⟩
  · exact ⟨h.stored, (competes_joins_iff hjoin).2 (.inr h.competes), h.moduleShown, hunrivalled⟩

end

end Listing

namespace Store

open Listing

/-- **Further dimensions only suppress by a better priority.** Joined filters list nothing that
neither of the two lists, and what the one lists is missing exactly if an event that competes for
the other outranks it in its activity. Without priorities nothing is missing. An id that is too wide
for a cell makes the joined listing fail, and one of the two as well. -/
theorem rawEvents_joins {values values' values'' : ByDimension Value} {F G H : Filters}
    (hF : Filters.coerce values = .ok F) (hG : Filters.coerce values' = .ok G)
    (hH : Filters.coerce values'' = .ok H) (hjoin : F.Joins G H) {c : Connection}
    (hc : c.failed = false) {t : Tables} (ht : c.tables = some t) (hsound : t.Sound)
    (showHidden : Bool) :
    (F.Fits → G.Fits → ∃ fs gs hs,
      (rawEvents values { Options.default with showHidden }).run c = (.ok fs, c) ∧
      (rawEvents values' { Options.default with showHidden }).run c = (.ok gs, c) ∧
      (rawEvents values'' { Options.default with showHidden }).run c = (.ok hs, c) ∧
      (∀ e ∈ hs, e ∈ fs ∨ e ∈ gs) ∧
      (∀ e ∈ fs, e ∉ hs ↔ ∃ e' ∈ t.events, Competes G showHidden e' ∧
        e'.activity = e.activity ∧ (e'.get .priority).Outranks (e.get .priority)) ∧
      ((∀ e ∈ t.events, Competes H showHidden e → e.get .priority = .null) →
        ∀ e, e ∈ hs ↔ e ∈ fs ∨ e ∈ gs)) ∧
    (¬ (F.Fits ∧ G.Fits) →
      (rawEvents values'' { Options.default with showHidden }).run c = (.error .tooWide, c) ∧
      ((rawEvents values { Options.default with showHidden }).run c = (.error .tooWide, c) ∨
        (rawEvents values' { Options.default with showHidden }).run c = (.error .tooWide, c))) := by
  constructor
  · intro hFfits hGfits
    have hHfits : H.Fits := hjoin.fits_iff.2 ⟨hFfits, hGfits⟩
    have hmem := fun f e => mem_sortedEvents_iff hsound f showHidden false .timestart (e := e)
    refine ⟨_, _, _, run_rawEvents_of_fits hF hFfits hc ht hsound showHidden,
      run_rawEvents_of_fits hG hGfits hc ht hsound showHidden,
      run_rawEvents_of_fits hH hHfits hc ht hsound showHidden, ?_, ?_, ?_⟩
    · intro e he
      rw [hmem F, hmem G]
      exact ((hmem H e).1 he).of_joins hjoin
    · intro e he
      rw [hmem H, ((hmem F e).1 he).joins_iff hjoin, not_unrivalled_iff]
    · intro hnull e
      rw [hmem F, hmem G, hmem H]
      exact listed_joins_iff_of_null hjoin hnull
  · intro hfits
    refine ⟨run_rawEvents_of_not_fits hH (mt hjoin.fits_iff.1 hfits) hc ht showHidden, ?_⟩
    rcases not_and_or.1 hfits with hFfits | hGfits
    · exact .inl (run_rawEvents_of_not_fits hF hFfits hc ht showHidden)
    · exact .inr (run_rawEvents_of_not_fits hG hGfits hc ht showHidden)

theorem deadline_listed :
    Listed ⟨.nobody, .nobody, .ofIds [5], .nobody⟩ false timetable deadline :=
  ⟨by simp [timetable], by decide, by decide, by decide⟩

/-- The user's own deadline takes the place of the one of the course, and of nothing else. -/
theorem rawEvents_joins_of_extension :
    ∃ fs hs, (rawEvents ⟨.null, .null, .int 5, .null⟩ .default).run (.opened (some timetable))
        = (.ok fs, .opened (some timetable)) ∧
      (rawEvents ⟨.int 4, .null, .int 5, .null⟩ .default).run (.opened (some timetable))
        = (.ok hs, .opened (some timetable)) ∧
      deadline ∈ fs ∧ deadline ∉ hs ∧ everlasting ∈ fs ∧ everlasting ∈ hs := by
  have hF : Filters.coerce ⟨.null, .null, .int 5, .null⟩
      = .ok ⟨.nobody, .nobody, .ofIds [5], .nobody⟩ := rfl
  have hG : Filters.coerce ⟨.int 4, .null, .null, .null⟩
      = .ok ⟨.ofIds [4], .nobody, .nobody, .nobody⟩ := rfl
  have hH : Filters.coerce ⟨.int 4, .null, .int 5, .null⟩
      = .ok ⟨.ofIds [4], .nobody, .ofIds [5], .nobody⟩ := rfl
  have hjoin : Filters.Joins ⟨.nobody, .nobody, .ofIds [5], .nobody⟩
      ⟨.ofIds [4], .nobody, .nobody, .nobody⟩ ⟨.ofIds [4], .nobody, .ofIds [5], .nobody⟩ := by
    intro d
    cases d <;> rfl
  have hsound : timetable.Sound := by decide
  obtain ⟨fs, gs, hs, hfs, -, hhs, -, hmissing, -⟩ := (rawEvents_joins hF hG hH hjoin
    (c := .opened (some timetable)) rfl rfl hsound false).1 (by decide) (by decide)
  have hlist := run_rawEvents_of_fits hF (by decide) (c := .opened (some timetable)) rfl rfl hsound
    false
  cases hfs.symm.trans hlist
  have hmem := fun e => mem_sortedEvents_iff hsound ⟨.nobody, .nobody, .ofIds [5], .nobody⟩ false
    false .timestart (e := e)
  have hdeadline := (hmem deadline).2 deadline_listed
  have heverlasting := (hmem everlasting).2
    ⟨by simp [timetable], by decide, by decide, by decide⟩
  refine ⟨_, hs, hfs, hhs, hdeadline, ?_, heverlasting, ?_⟩
  · exact (hmissing deadline hdeadline).2
      ⟨extension, by simp [timetable], by decide, by decide, by decide⟩
  · by_contra hlost
    exact absurd ((hmissing everlasting heverlasting).1 hlost) (by decide)

/-- A group with an id that is too wide for a cell makes the joined listing fail, although no event
competes for it. -/
theorem rawEvents_joins_of_wide_group :
    Filters.Joins ⟨.nobody, .nobody, .ofIds [5], .nobody⟩
        ⟨.nobody, .ofIds [9223372036854775808], .nobody, .nobody⟩
        ⟨.nobody, .ofIds [9223372036854775808], .ofIds [5], .nobody⟩ ∧
      (∃ fs, (rawEvents ⟨.null, .null, .int 5, .null⟩ .default).run (.opened (some timetable))
        = (.ok fs, .opened (some timetable)) ∧ deadline ∈ fs) ∧
      (rawEvents ⟨.null, .int 9223372036854775808, .int 5, .null⟩ .default).run
        (.opened (some timetable)) = (.error .tooWide, .opened (some timetable)) ∧
      ∀ e ∈ timetable.events,
        ¬ Competes ⟨.nobody, .ofIds [9223372036854775808], .nobody, .nobody⟩ false e := by
  have hF : Filters.coerce ⟨.null, .null, .int 5, .null⟩
      = .ok ⟨.nobody, .nobody, .ofIds [5], .nobody⟩ := rfl
  have hH : Filters.coerce ⟨.null, .int 9223372036854775808, .int 5, .null⟩
      = .ok ⟨.nobody, .ofIds [9223372036854775808], .ofIds [5], .nobody⟩ := rfl
  have hsound : timetable.Sound := by decide
  refine ⟨fun d => by cases d <;> rfl,
    ⟨_, run_rawEvents_of_fits hF (by decide) rfl rfl hsound false, ?_⟩,
    run_rawEvents_of_not_fits hH (by decide) rfl rfl false, by decide⟩
  exact (mem_sortedEvents_iff hsound _ false false .timestart).2 deadline_listed

end Store

end EventCalendar
