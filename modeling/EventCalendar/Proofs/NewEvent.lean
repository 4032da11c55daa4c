import EventCalendar.Proofs.BestOfActivity
import EventCalendar.Proofs.Noninterference
import EventCalendar.Store.Insert

/-!
# Listings after a new event

An event that is created changes a listing in its own activity only:

* `createEvent_adds`: a created event is one more row, with a new id, and the session stays usable.
* `listed_adding_iff`: with a new event that qualifies, an event is listed if it was and the new one
  does not outrank it, and the new one is listed if none of those outranks it.
* `changesActivity_adding`: so the list of its activity is the new event alone, or has it besides,
  or stays as it was.
* `createEvent_listing`: **what a new event changes in a listing**.
-/

set_option autoImplicit false

namespace EventCalendar

def Tables.adding (t : Tables) (x : Event) : Tables := { t with events := t.events ++ [x] }

theorem Tables.mem_adding {t : Tables} {x e : Event} :
    e ∈ (t.adding x).events ↔ e ∈ t.events ∨ e = x := by
  rw [adding, List.mem_append, List.mem_singleton]

theorem Tables.Sound.adding {t : Tables} (ht : t.Sound) {x : Event} (hx : x.WellTyped)
    (hid : ∀ e ∈ t.events, e.id ≠ x.id) : (t.adding x).Sound where
  events := by
    intro e he
    rcases Tables.mem_adding.1 he with he | rfl
    · exact ht.events e he
    · exact hx
  modules := ht.modules
  ids := Listing.nodup_map_snoc ht.ids hid
  names := ht.names

theorem Cell.Outranks.asymm {p q : Cell} (h : p.Outranks q) : ¬ q.Outranks p := by
  cases p <;> cases q <;> simp only [Outranks, not_false_eq_true] at h ⊢
  omega

namespace Listing

/-! ## The rule with a new event -/

section
variable {f : Filters} {showHidden : Bool} {t : Tables} {x : Event}

theorem qualifies_adding_iff {e : Event} :
    Qualifies f showHidden (t.adding x) e ↔
      Qualifies f showHidden t e ∨ e = x ∧ Competes f showHidden x ∧ ModuleShown t x := by
  constructor
  · intro h
    rcases Tables.mem_adding.1 h.stored with hstored | rfl
    · exact .inl ⟨hstored, h.competes, h.moduleShown⟩
    · exact .inr ⟨rfl, h.competes, h.moduleShown⟩
  · intro h
    rcases h with h | ⟨rfl, hcompetes, hshown⟩
    · exact ⟨Tables.mem_adding.2 (.inl h.stored), h.competes, h.moduleShown⟩
    · exact ⟨Tables.mem_adding.2 (.inr rfl), hcompetes, hshown⟩

theorem sameQualifying_adding (h : ¬ (Competes f showHidden x ∧ ModuleShown t x)) :
    SameQualifying f showHidden t (t.adding x) := by
  intro e
  rw [qualifies_adding_iff, or_iff_left fun hx => h hx.2]

theorem listed_adding_of_ne {e : Event} (ha : e.activity ≠ x.activity) :
    Listed f showHidden (t.adding x) e ↔ Listed f showHidden t e := by
  have hne : e ≠ x := fun h => ha (h ▸ rfl)
  simp only [listed_iff_qualifies, qualifies_adding_iff, or_imp, forall_and]
  grind

variable (ht : t.Sound) (hx : x.WellTyped)
include ht hx

/-- If events of the activity outrank the new one, then one that is listed does. -/
theorem exists_listed_outranks {e : Event} (he : Qualifies f showHidden t e)
    (ha : e.activity = x.activity) (hrank : (e.get .priority).Outranks (x.get .priority)) :
    ∃ r, Listed f showHidden t r ∧ r.activity = x.activity ∧
      (r.get .priority).Outranks (x.get .priority) := by
  obtain ⟨r, hr, hrc, hra, hunrivalled⟩ := exists_unrivalled ht he.stored he.competes
  refine ⟨r, ⟨hr, hrc, he.moduleShown.of_activity hra, hunrivalled⟩, hra.trans ha, ?_⟩
  by_contra hnot
  exact Cell.not_outranks_trans (ht.events e he.stored).isPriority (ht.events r hr).isPriority
    hx.isPriority (hunrivalled e he.stored he.competes hra.symm) hnot hrank

/-- **What is listed of the activity of a new event** that qualifies. -/
theorem listed_adding_iff (hcompetes : Competes f showHidden x) (hshown : ModuleShown t x)
    {e : Event} (ha : e.activity = x.activity) :
    Listed f showHidden (t.adding x) e ↔
      (Listed f showHidden t e ∧ ¬ (x.get .priority).Outranks (e.get .priority)) ∨
        e = x ∧ ∀ r, Listed f showHidden t r → r.activity = x.activity →
          ¬ (r.get .priority).Outranks (x.get .priority) := by
  have hnew : Qualifies f showHidden (t.adding x) x :=
    qualifies_adding_iff.2 (.inr ⟨rfl, hcompetes, hshown⟩)
  constructor
  · intro h
    obtain ⟨hqualifies, hrivals⟩ := listed_iff_qualifies.1 h
    rcases qualifies_adding_iff.1 hqualifies with he | ⟨rfl, -, -⟩
    · refine .inl ⟨listed_iff_qualifies.2 ⟨he, fun r hr => ?_⟩, hrivals x hnew ha.symm⟩
      exact hrivals r (qualifies_adding_iff.2 (.inl hr))
    · refine .inr ⟨rfl, fun r hr => ?_⟩
      exact hrivals r (qualifies_adding_iff.2 (.inl (listed_iff_qualifies.1 hr).1))
  · intro h
    rcases h with ⟨hlisted, hbest⟩ | ⟨rfl, hbest⟩
    · obtain ⟨he, hrivals⟩ := listed_iff_qualifies.1 hlisted
      refine listed_iff_qualifies.2 ⟨qualifies_adding_iff.2 (.inl he), fun r hr hra => ?_⟩
      rcases qualifies_adding_iff.1 hr with hr | ⟨rfl, -, -⟩
      · exact hrivals r hr hra
      · exact hbest
    · refine listed_iff_qualifies.2 ⟨hnew, fun r hr hra hrank => ?_⟩
      rcases qualifies_adding_iff.1 hr with hr | ⟨rfl, -, -⟩
      · obtain ⟨best, hlisted, hba, hbr⟩ := exists_listed_outranks ht hx hr hra hrank
        exact hbest best hlisted hba hbr
      · exact Cell.Outranks.irrefl _ hrank

section
variable (hcompetes : Competes f showHidden x) (hshown : ModuleShown t x) {e : Event}
  (ha : e.activity = x.activity)
include hcompetes hshown ha

/-- A new event takes the place of those that it outranks. -/
theorem listed_adding_of_best (hbest : ∀ r, Listed f showHidden t r → r.activity = x.activity →
      (x.get .priority).Outranks (r.get .priority)) :
    Listed f showHidden (t.adding x) e ↔ e = x := by
  rw [listed_adding_iff ht hx hcompetes hshown ha]
  constructor
  · intro h
    rcases h with ⟨hlisted, hnot⟩ | ⟨rfl, -⟩
    · exact absurd (hbest e hlisted ha) hnot
    · rfl
  · intro h
    exact .inr ⟨h, fun r hr hra => (hbest r hr hra).asymm⟩

variable {r : Event} (hr : Listed f showHidden t r) (hra : r.activity = x.activity)
include hr hra

theorem listed_adding_of_equal (hequal : r.get .priority = x.get .priority) :
    Listed f showHidden (t.adding x) e ↔ Listed f showHidden t e ∨ e = x := by
  have hall : ∀ e', Listed f showHidden t e' → e'.activity = x.activity →
      e'.get .priority = x.get .priority :=
    fun e' he' ha' => (hr.priority_eq ht he' (ha'.trans hra.symm)).trans hequal
  rw [listed_adding_iff ht hx hcompetes hshown ha]
  refine or_congr (and_iff_left_of_imp fun he => ?_) (and_iff_left fun e' he' ha' => ?_)
  · rw [hall e he ha]
    exact Cell.Outranks.irrefl _
  · rw [hall e' he' ha']
    exact Cell.Outranks.irrefl _

theorem listed_adding_of_outranked (hrank : (r.get .priority).Outranks (x.get .priority)) :
    Listed f showHidden (t.adding x) e ↔ Listed f showHidden t e := by
  rw [listed_adding_iff ht hx hcompetes hshown ha]
  constructor
  · intro h
    rcases h with ⟨hlisted, -⟩ | ⟨-, hbest⟩
    · exact hlisted
    · exact absurd hrank (hbest r hr hra)
  · intro h
    refine .inl ⟨h, ?_⟩
    rw [hr.priority_eq ht h (ha.trans hra.symm)]
    exact hrank.asymm

end

end

/-! ## Lists before and after -/

def ofActivity (a : Activity) (es : List Event) : List Event := es.filter fun e => e.activity = a

theorem mem_ofActivity {a : Activity} {es : List Event} {e : Event} :
    e ∈ ofActivity a es ↔ e ∈ es ∧ e.activity = a := by
  rw [ofActivity, List.mem_filter, decide_eq_true_iff]

/-- What a new event changes in the list that there was before it: nothing if it does not qualify,
and nothing but the events of its activity if it does. -/
structure ChangesActivity (f : Filters) (showHidden : Bool) (t : Tables) (x : Event)
    (before after : List Event) : Prop where
  others : after.filter (fun e => e.activity ≠ x.activity)
    = before.filter fun e => e.activity ≠ x.activity
  unqualified : ¬ (Competes f showHidden x ∧ ModuleShown t x) → after = before
  /-- The new event takes the place of those that it outranks. -/
  best : Competes f showHidden x → ModuleShown t x →
    (∀ e ∈ ofActivity x.activity before, (x.get .priority).Outranks (e.get .priority)) →
      ofActivity x.activity after = [x]
  /-- The new event is added to those of its priority. -/
  equal : Competes f showHidden x → ModuleShown t x →
    ∀ e ∈ ofActivity x.activity before, e.get .priority = x.get .priority →
      (ofActivity x.activity after).Perm (x :: ofActivity x.activity before)
  outranked : Competes f showHidden x → ModuleShown t x →
    ∀ e ∈ ofActivity x.activity before, (e.get .priority).Outranks (x.get .priority) →
      ofActivity x.activity after = ofActivity x.activity before

/-- The events that a listing without conditions, order or page lists. -/
abbrev listing (f : Filters) (showHidden : Bool) (t : Tables) : List Event :=
  sortedEvents f showHidden t (baseHolds f showHidden) false .timestart

section
variable {f : Filters} {showHidden : Bool} {t : Tables} (ht : t.Sound)
include ht

theorem mem_ofActivity_listing {a : Activity} {e : Event} :
    e ∈ ofActivity a (listing f showHidden t) ↔ Listed f showHidden t e ∧ e.activity = a := by
  rw [mem_ofActivity, mem_sortedEvents_iff ht]

theorem nodup_filter_listing (f : Filters) (showHidden : Bool) (p : Event → Bool) :
    (((listing f showHidden t).filter p).map (·.id)).Nodup :=
  (nodup_id_sortedEvents ht f showHidden (baseHolds f showHidden) false .timestart).sublist
    (List.filter_sublist.map _)

theorem nodup_ofActivity_listing (f : Filters) (showHidden : Bool) (a : Activity) :
    (ofActivity a (listing f showHidden t)).Nodup :=
  .of_map _ (nodup_filter_listing ht f showHidden _)

theorem filter_listing_eq {t' : Tables} (ht' : t'.Sound) {p : Event → Bool}
    (h : ∀ e, p e = true → (Listed f showHidden t e ↔ Listed f showHidden t' e)) :
    (listing f showHidden t).filter p = (listing f showHidden t').filter p := by
  have hids := nodup_filter_listing ht f showHidden p
  have hids' := nodup_filter_listing ht' f showHidden p
  have hperm := (List.perm_ext_iff_of_nodup (.of_map _ hids) (.of_map _ hids')).2 fun e => by
    rw [List.mem_filter, List.mem_filter, mem_sortedEvents_iff ht, mem_sortedEvents_iff ht']
    exact and_congr_left (h e)
  exact eq_of_sorted_of_perm hperm hids
    ((pairwise_sortedEvents ht f showHidden _ false .timestart).filter p)
    ((pairwise_sortedEvents ht' f showHidden _ false .timestart).filter p)

section
variable {x : Event} (hx : x.WellTyped) (hid : ∀ e ∈ t.events, e.id ≠ x.id)
  (hcompetes : Competes f showHidden x) (hshown : ModuleShown t x)
include hx hid hcompetes hshown

theorem ofActivity_adding_of_best (hbest : ∀ r, Listed f showHidden t r →
      r.activity = x.activity → (x.get .priority).Outranks (r.get .priority)) :
    ofActivity x.activity (listing f showHidden (t.adding x)) = [x] := by
  have ht' : (t.adding x).Sound := ht.adding hx hid
  refine List.perm_singleton.1 ((List.perm_ext_iff_of_nodup
    (nodup_ofActivity_listing ht' f showHidden _) (List.nodup_singleton x)).2 fun e => ?_)
  rw [mem_ofActivity_listing ht', List.mem_singleton]
  constructor
  · intro h
    exact (listed_adding_of_best ht hx hcompetes hshown h.2 hbest).1 h.1
  · intro h
    have ha : e.activity = x.activity := congrArg Event.activity h
    exact ⟨(listed_adding_of_best ht hx hcompetes hshown ha hbest).2 h, ha⟩

variable {r : Event} (hr : Listed f showHidden t r) (hra : r.activity = x.activity)
include hr hra

theorem ofActivity_adding_of_equal (hequal : r.get .priority = x.get .priority) :
    (ofActivity x.activity (listing f showHidden (t.adding x))).Perm
      (x :: ofActivity x.activity (listing f showHidden t)) := by
  have ht' : (t.adding x).Sound := ht.adding hx hid
  have hnew : x ∉ ofActivity x.activity (listing f showHidden t) :=
    fun h => hid x ((mem_ofActivity_listing ht).1 h).1.stored rfl
  refine (List.perm_ext_iff_of_nodup (nodup_ofActivity_listing ht' f showHidden _)
    (List.nodup_cons.2 ⟨hnew, nodup_ofActivity_listing ht f showHidden _⟩)).2 fun e => ?_
  rw [mem_ofActivity_listing ht', List.mem_cons, mem_ofActivity_listing ht]
  constructor
  · intro h
    rcases (listed_adding_of_equal ht hx hcompetes hshown h.2 hr hra hequal).1 h.1 with h' | h'
    · exact .inr ⟨h', h.2⟩
    · exact .inl h'
  · intro h
    have ha : e.activity = x.activity := h.elim (congrArg Event.activity) And.right
    exact ⟨(listed_adding_of_equal ht hx hcompetes hshown ha hr hra hequal).2
      (h.symm.imp_left And.left), ha⟩

theorem ofActivity_adding_of_outranked (hrank : (r.get .priority).Outranks (x.get .priority)) :
    ofActivity x.activity (listing f showHidden (t.adding x))
      = ofActivity x.activity (listing f showHidden t) := by
  refine filter_listing_eq (ht.adding hx hid) ht fun e he => ?_
  exact listed_adding_of_outranked ht hx hcompetes hshown (of_decide_eq_true he) hr hra hrank

end

/-- **A new event changes the list of its activity only.** -/
theorem changesActivity_adding {x : Event} (hx : x.WellTyped)
    (hid : ∀ e ∈ t.events, e.id ≠ x.id) :
    ChangesActivity f showHidden t x (listing f showHidden t)
      (listing f showHidden (t.adding x)) where
  others := filter_listing_eq (ht.adding hx hid) ht fun e he =>
    listed_adding_of_ne (of_decide_eq_true he)
  unqualified := by
    intro hnot
    have hsame := filter_listing_eq (ht.adding hx hid) ht (p := fun _ => true)
      fun e _ => ((sameQualifying_adding hnot).listed_iff e).symm
    simpa only [List.filter_true] using hsame
  best := by
    intro hcompetes hshown houtranks
    refine ofActivity_adding_of_best ht hx hid hcompetes hshown fun r hr hra => ?_
    exact houtranks r ((mem_ofActivity_listing ht).2 ⟨hr, hra⟩)
  equal := by
    intro hcompetes hshown r hr hequal
    obtain ⟨hlisted, hra⟩ := (mem_ofActivity_listing ht).1 hr
    exact ofActivity_adding_of_equal ht hx hid hcompetes hshown hlisted hra hequal
  outranked := by
    intro hcompetes hshown r hr hrank
    obtain ⟨hlisted, hra⟩ := (mem_ofActivity_listing ht).1 hr
    exact ofActivity_adding_of_outranked ht hx hid hcompetes hshown hlisted hra hrank

end

end Listing

/-! ## Typed drafts -/

namespace Draft

/-- Each value of the draft is the content of a column of its declared type. -/
def Typed (d : Draft) : Prop := ∀ c : Column, ∃ x, c.Holds x ∧ d.value c = x.value

theorem identified_of_isNull {d : Draft} (h : (d.value .id).isNull = true) (id : Int) :
    (d.identified id).value .id = .int id := if_pos ⟨rfl, h⟩

theorem identified_of_ne {d : Draft} {id : Int} {c : Column}
    (h : c ≠ .id ∨ (d.value .id).isNull = false) : (d.identified id).value c = d.value c := by
  refine if_neg fun hnull => ?_
  rcases h with h | h
  · exact h hnull.1
  · rw [h] at hnull
    cases hnull.2

end Draft

namespace Store

open Listing

/-! ## Storing a new event -/

theorem run_bind_eq_ok_iff {α β : Type} {action : Action α} {next : α → Action β} {b : β}
    {c c' : Connection} :
    (action >>= next).run c = (.ok b, c') ↔
      ∃ a c₁, action.run c = (.ok a, c₁) ∧ (next a).run c₁ = (.ok b, c') := by
  constructor
  · intro h
    cases hrun : action.run c with
    | mk r c₁ =>
      cases r with
      | error f =>
        rw [run_bind_of_error hrun] at h
        cases h
      | ok a =>
        rw [run_bind_of_ok hrun] at h
        exact ⟨a, c₁, rfl, h⟩
  · intro h
    obtain ⟨a, c₁, hrun, hnext⟩ := h
    rw [run_bind_of_ok hrun, hnext]

theorem run_change_eq_ok_iff {α : Type} {step : Option Tables → Except Failure (Tables × α)} {a : α}
    {c c' : Connection} :
    (change step).run c = (.ok a, c') ↔
      c.failed = false ∧ ∃ t, step c.tables = .ok (t, a) ∧ c' = { c with pending := some t } := by
  unfold change
  rw [run_bind_eq_ok_iff]
  obtain ⟨committed, pending, failed, locked⟩ := c
  cases failed with
  | true => exact ⟨fun h => (by obtain ⟨_, _, h, -⟩ := h; cases h), fun h => (by cases h.1)⟩
  | false =>
    constructor
    · intro h
      obtain ⟨_, _, husable, h⟩ := h
      cases husable
      obtain ⟨_, _, hget, h⟩ := run_bind_eq_ok_iff.1 h
      cases hget
      split at h
      · rename_i t b hstep
        cases h
        exact ⟨rfl, t, hstep, rfl⟩
      · cases h
    · intro h
      obtain ⟨-, t, hstep, rfl⟩ := h
      refine ⟨(), _, rfl, run_bind_eq_ok_iff.2 ⟨_, _, rfl, ?_⟩⟩
      rw [hstep]
      rfl

/-- **An event is inserted** if it passes every check; it is one more row then. -/
theorem insertEvent_eq_ok_iff {d : Draft} {locked : Bool} {tables : Option Tables} {t' : Tables}
    {id : Int} :
    insertEvent d locked tables = .ok (t', id) ↔
      (d.value .id).unhashable? = none ∧ ∃ t, tables = some t ∧
        (∃ cells, bindAll 1 (insertedValues d) = .ok cells) ∧ locked = false ∧
        storedId d t.events = .ok id ∧ missingColumn? d = none ∧ (∀ e ∈ t.events, e.id ≠ id) ∧
        t' = t.adding ⟨id, storedCell d⟩ := by
  -- The cases are the checks, in the order in which they are made.
  unfold insertEvent
  cases (d.value .id).unhashable? with
  | some kind => exact ⟨fun h => (by cases h), fun h => (by cases h.1)⟩
  | none =>
    rw [and_iff_right rfl]
    cases tables with
    | none => exact ⟨fun h => (by cases h), fun h => (by obtain ⟨t, h, -⟩ := h; cases h)⟩
    | some t =>
      simp only [Option.some.injEq, exists_eq_left']
      cases bindAll 1 (insertedValues d) with
      | error f => exact ⟨fun h => (by cases h), fun h => (by obtain ⟨⟨_, h⟩, -⟩ := h; cases h)⟩
      | ok cells =>
        cases locked with
        | true => exact ⟨fun h => (by cases h), fun h => (by cases h.2.1)⟩
        | false =>
          cases storedId d t.events with
          | error f => exact ⟨fun h => (by cases h), fun h => (by cases h.2.2.1)⟩
          | ok id' =>
            cases missingColumn? d with
            | some c => exact ⟨fun h => (by cases h), fun h => (by cases h.2.2.2.1)⟩
            | none =>
              have hinsert : ∀ taken : Bool, (do
                    if taken then throw (.refused .integrity "UNIQUE constraint failed: event.id")
                    pure (t.adding ⟨id', storedCell d⟩, id') : Except Failure (Tables × Int))
                      = .ok (t', id) ↔
                    id' = id ∧ taken = false ∧ t' = t.adding ⟨id', storedCell d⟩ := by
                intro taken
                cases taken with
                | true => exact ⟨fun h => (by cases h), fun h => (by cases h.2.1)⟩
                | false =>
                  constructor
                  · intro h
                    cases h
                    exact ⟨rfl, rfl, rfl⟩
                  · intro h
                    obtain ⟨rfl, -, rfl⟩ := h
                    rfl
              refine (hinsert _).trans ?_
              simp only [List.any_eq_false, beq_iff_eq, Except.ok.injEq, exists_eq', true_and]
              refine and_congr_right fun hid => ?_
              subst hid
              rfl

theorem storedCell_of_holds {d : Draft} {c : Column} {x : Cell} (hx : c.Holds x)
    (h : d.value c = x.value) : storedCell d c = x := by
  rw [storedCell, h]
  rcases hx with ⟨-, rfl⟩ | hx
  · cases c <;> rfl
  · cases ht : c.isText with
    | true =>
      rw [ht, if_pos rfl] at hx
      obtain ⟨s, rfl⟩ := hx
      rw [Column.affinity, ht]
      rfl
    | false =>
      rw [ht, if_neg Bool.false_ne_true] at hx
      obtain ⟨i, rfl, hi⟩ := hx
      rw [Column.affinity, ht, Cell.value, Cell.ofValue, if_pos hi]
      rfl

theorem stored_of_typed {d : Draft} {events : List Event} {id : Int}
    (hid : storedId d events = .ok id) (htyped : (d.identified id).Typed) :
    (Event.mk id (storedCell d)).WellTyped ∧
      (Event.mk id (storedCell d)).draft = d.identified id := by
  have hget : ∀ c, c.Holds ((Event.mk id (storedCell d)).get c) ∧
      (d.identified id).value c = ((Event.mk id (storedCell d)).get c).value := by
    intro c
    obtain ⟨x, hx, hvalue⟩ := htyped c
    suffices heq : (Event.mk id (storedCell d)).get c = x by
      rw [heq]
      exact ⟨hx, hvalue⟩
    by_cases hc : c = .id
    · subst hc
      have hint : ∃ i, x = .int i :=
        hx.elim (fun h => (by cases h.1)) fun h => h.imp fun _ => And.left
      obtain ⟨i, rfl⟩ := hint
      cases hnull : (d.value .id).isNull with
      | true =>
        rw [Draft.identified_of_isNull hnull] at hvalue
        cases hvalue
        rfl
      | false =>
        rw [Draft.identified_of_ne (.inr hnull)] at hvalue
        rw [storedId, storedCell_of_holds hx hvalue] at hid
        cases hid
        rfl
    · rw [Event.get_of_ne hc]
      refine storedCell_of_holds hx ?_
      rw [← hvalue, Draft.identified_of_ne (.inl hc)]
  exact ⟨fun c => (hget c).1, congrArg Draft.mk (funext fun c => (hget c).2.symm)⟩

/-- **A created event** is one more row, with an id of its own, and the session stays usable. -/
theorem createEvent_adds {fields : List (String × Value)} {d : Draft} {c c' : Connection}
    (h : (createEvent fields).run c = (.ok d, c')) :
    c.failed = false ∧ ∃ t x, c.tables = some t ∧ c' = { c with pending := some (t.adding x) } ∧
      (∀ e ∈ t.events, e.id ≠ x.id) ∧ (d.Typed → x.WellTyped ∧ x.draft = d) := by
  unfold createEvent at h
  cases hfields : Draft.ofFields fields with
  | error f =>
    rw [hfields] at h
    cases h
  | ok d₀ =>
    rw [hfields] at h
    obtain ⟨c₀, c₁, hget, h⟩ := run_bind_eq_ok_iff.1 h
    cases hget
    obtain ⟨id, c₂, hchange, h⟩ := run_bind_eq_ok_iff.1 h
    cases h
    obtain ⟨hc, t', hinsert, rfl⟩ := run_change_eq_ok_iff.1 hchange
    obtain ⟨-, t, ht, -, -, hid, -, hfresh, rfl⟩ := insertEvent_eq_ok_iff.1 hinsert
    exact ⟨hc, t, _, ht, rfl, hfresh, stored_of_typed hid⟩

/-- **A new event changes a listing in its own activity only**, and not even there if it does not
qualify. A created event of typed values is stored as it is. An id that is too wide for a cell makes
both listings fail. -/
theorem createEvent_listing {values : ByDimension Value} {f : Filters}
    (hf : Filters.coerce values = .ok f) {fields : List (String × Value)} {d : Draft}
    {c c' : Connection} (hcreated : (createEvent fields).run c = (.ok d, c')) {t : Tables}
    (ht : c.tables = some t) (hsound : t.Sound) :
    ∃ x, c'.tables = some (t.adding x) ∧ (∀ e ∈ t.events, e.id ≠ x.id) ∧
      (d.Typed → x.WellTyped ∧ x.draft = d) ∧
      (x.WellTyped → ∀ showHidden,
        (f.Fits → ∃ before after,
          (rawEvents values { Options.default with showHidden }).run c = (.ok before, c) ∧
          (rawEvents values { Options.default with showHidden }).run c' = (.ok after, c') ∧
          ChangesActivity f showHidden t x before after) ∧
        (¬ f.Fits →
          (rawEvents values { Options.default with showHidden }).run c = (.error .tooWide, c) ∧
          (rawEvents values { Options.default with showHidden }).run c'
            = (.error .tooWide, c'))) := by
  obtain ⟨hc, t₀, x, ht₀, hadded, hfresh, htyped⟩ := createEvent_adds hcreated
  cases ht.symm.trans ht₀
  have hc' : c'.failed = false := hadded ▸ hc
  have ht' : c'.tables = some (t.adding x) := hadded ▸ rfl
  refine ⟨x, ht', hfresh, htyped, fun hx showHidden => ⟨fun hfits => ?_, fun hfits => ⟨?_, ?_⟩⟩⟩
  · exact ⟨_, _, run_rawEvents_of_fits hf hfits hc ht hsound showHidden,
      run_rawEvents_of_fits hf hfits hc' ht' (hsound.adding hx hfresh) showHidden,
      changesActivity_adding hsound hx hfresh⟩
  · exact run_rawEvents_of_not_fits hf hfits hc ht showHidden
  · exact run_rawEvents_of_not_fits hf hfits hc' ht' showHidden

def extensionFields : List (String × Value) :=
  [("userid", .int 4), ("modulename", .text "assign"), ("timestart", .int 500),
    ("priority", .int userOverridePriority)]

/-- A user's own deadline takes the place of the one of the course. -/
theorem createEvent_listing_of_extension :
    ∃ d c' before after x,
      (createEvent extensionFields).run (.opened (some ⟨[deadline], []⟩)) = (.ok d, c') ∧
      (rawEvents ⟨.int 4, .null, .int 5, .null⟩ .default).run (.opened (some ⟨[deadline], []⟩))
        = (.ok before, .opened (some ⟨[deadline], []⟩)) ∧
      (rawEvents ⟨.int 4, .null, .int 5, .null⟩ .default).run c' = (.ok after, c') ∧
      deadline ∈ before ∧ ofActivity deadline.activity after = [x] ∧
      x.get .timestart = .int 500 := by
  have hcoerce : Filters.coerce ⟨.int 4, .null, .int 5, .null⟩
      = .ok ⟨.ofIds [4], .nobody, .ofIds [5], .nobody⟩ := rfl
  have hsound : Tables.Sound ⟨[deadline], []⟩ := by decide
  obtain ⟨d, c', hcreated⟩ : ∃ d c',
      (createEvent extensionFields).run (.opened (some ⟨[deadline], []⟩)) = (.ok d, c') :=
    ⟨_, _, rfl⟩
  obtain ⟨x, hadded, -, -, hlisting⟩ := createEvent_listing hcoerce hcreated rfl hsound
  have hx : x
      = ⟨2, storedCell ((Draft.ofFields extensionFields).toOption.getD .blank).completed⟩ := by
    cases hcreated
    cases hadded
    rfl
  obtain ⟨before, after, hbefore, hafter, hchanges⟩ :=
    (hlisting (hx ▸ by decide) false).1 (by decide)
  have hmem := fun e => mem_sortedEvents_iff hsound ⟨.ofIds [4], .nobody, .ofIds [5], .nobody⟩ false
    false .timestart (e := e)
  cases hbefore.symm.trans (run_rawEvents_of_fits hcoerce (by decide) rfl rfl hsound false)
  have hactivity : x.activity = deadline.activity := hx ▸ by decide
  refine ⟨d, c', _, after, x, hcreated, hbefore, hafter, (hmem deadline).2 ?_, ?_, hx ▸ by decide⟩
  · exact ⟨by simp, by decide, by decide, by decide⟩
  · rw [← hactivity]
    refine hchanges.best (hx ▸ by decide) (hx ▸ by decide) fun e he => ?_
    have hstored := ((hmem e).1 (mem_ofActivity.1 he).1).stored
    rw [List.mem_singleton.1 hstored, hx]
    decide

end Store

end EventCalendar
