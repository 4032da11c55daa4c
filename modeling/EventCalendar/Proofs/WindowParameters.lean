import EventCalendar.Proofs.WindowedListing
import Mathlib.Data.List.Find

/-!
# Values for the names of a window

The conditions of a window get their bounds by name, from the same values as those of the caller,
and the caller's values win:

* `eventsInWindow_congr`: a listing depends on the values of the names in its conditions only.
* `Window.InForce`: the bound that counts is the caller's integer under its name, if there is one.
* `eventsInWindow_inForce`: a window is the window between the bounds in force.
* `listed_of_run_window`: whatever conjunctions the caller adds, listed events lie between the bounds in
  force.
* `eventsInWindow_bounds`: **when a window keeps its bounds**.
-/

set_option autoImplicit false

namespace EventCalendar

theorem Tables.sound_singleton {e : Event} (he : e.WellTyped) : Tables.Sound ⟨[e], []⟩ where
  events := List.forall_mem_singleton.2 he
  modules := List.forall_mem_nil _
  ids := List.nodup_singleton _
  names := List.nodup_nil

namespace Listing

/-! ## Values of names -/

/-- There are the same values for the names of a condition. -/
def SameValues (params params' : NamedValues) (c : String) : Prop :=
  ∀ name, name ∈ Placeholder.names c ∨ name ∈ Placeholder.lookedUp c →
    params.lookup name = params'.lookup name

def Options.valued (o : Options) (params : NamedValues) : Options := { o with params }

theorem ofText_congr {params params' : NamedValues} {c : String}
    (h : ∀ name ∈ Placeholder.names c, params.lookup name = params'.lookup name) :
    Item.ofText params c = Item.ofText params' c := by
  refine List.map_congr_left fun x hx => ?_
  cases x with
  | char c => rfl
  | slot name =>
    have hname : name ∈ Placeholder.names c := List.mem_filterMap.2 ⟨.slot name, hx, rfl⟩
    simp only [Binding.ofName, h name hname]

theorem orphanName?_congr {params params' : NamedValues} {c : String}
    (h : SameValues params params' c) :
    Placeholder.orphanName? params c = Placeholder.orphanName? params' c := by
  refine List.find?_congr fun name hname => ?_
  rw [h name (.inr hname)]

theorem findSome?_congr {α β : Type} {f g : α → Option β} {xs : List α} (h : ∀ x ∈ xs, f x = g x) :
    xs.findSome? f = xs.findSome? g := by
  induction xs with
  | nil => rfl
  | cons x xs ih =>
    obtain ⟨hx, hxs⟩ := List.forall_mem_cons.1 h
    rw [List.findSome?_cons, List.findSome?_cons, hx, ih hxs]

section
variable {o : Options} {params : NamedValues}

section
variable (h : ∀ c ∈ o.conditions, ∀ name ∈ Placeholder.names c,
  params.lookup name = o.params.lookup name)
include h

theorem tail_valued (f : Filters) :
    (Statement.mk f (o.valued params)).tail = (Statement.mk f o).tail := by
  have hconditions : (Statement.mk f o).conditions.flatMap
      (fun c => Item.plain " AND " ++ Item.ofText params c)
        = (Statement.mk f o).conditions.flatMap
          fun c => Item.plain " AND " ++ Item.ofText o.params c :=
    List.flatMap_congr fun c hc => by rw [ofText_congr (h c (List.mem_of_mem_filter hc))]
  exact congrArg (· ++ _ ++ _ ++ _) hconditions

theorem items_valued (f : Filters) :
    (Statement.mk f (o.valued params)).items = (Statement.mk f o).items := by
  rw [Statement.items, tail_valued h]
  rfl

end

variable (h : ∀ c ∈ o.conditions, SameValues params o.params c)
include h

theorem orphan?_congr : orphan? (o.valued params) = orphan? o :=
  findSome?_congr fun c hc => orphanName?_congr (h c hc)

theorem execute_congr (f : Filters) :
    (Statement.mk f (o.valued params)).execute = (Statement.mk f o).execute := by
  have hvalues : ∀ c ∈ o.conditions, ∀ name ∈ Placeholder.names c,
      params.lookup name = o.params.lookup name := fun c hc name hname => h c hc name (.inl hname)
  funext tables
  rw [Statement.execute, Statement.selection?, Statement.tokens?, items_valued hvalues,
    tail_valued hvalues]
  rfl

end

/-! ## Bounds in force -/

namespace Window

/-- The bound that is in force: the caller's integer under its name, if there is one. -/
inductive InForce (params : NamedValues) (name : String) : Option Int → Option Int → Prop
  | unbounded : InForce params name none none
  | kept {n : Int} (h : params.lookup name = none) : InForce params name (some n) (some n)
  | replaced {n m : Int} (h : params.lookup name = some (.int m)) :
    InForce params name (some n) (some m)

theorem inForce_self {params : NamedValues} {name : String} {b : Option Int}
    (h : ∀ n, b = some n → params.lookup name = none) : InForce params name b b := by
  cases b with
  | none => exact .unbounded
  | some n => exact .kept (h n rfl)

theorem InForce.eq_of_lookup_eq_none {params : NamedValues} {name : String} {b b' : Option Int}
    (h : InForce params name b b') (hnone : params.lookup name = none) : b' = b := by
  cases h with
  | unbounded => rfl
  | kept h => rfl
  | replaced h =>
    rw [hnone] at h
    cases h

theorem lookup_between (start stop : Option Int) (withDuration : Bool) (name : String) :
    (between start stop withDuration).params.lookup name
      = if name = "window_start" then start.map .int
        else if name = "window_end" then stop.map .int else none := by
  by_cases hstart : name = "window_start"
  · subst hstart
    cases start <;> cases stop <;> rfl
  · rw [if_neg hstart]
    by_cases hstop : name = "window_end"
    · subst hstop
      cases start <;> cases stop <;> rfl
    · rw [if_neg hstop]
      have hstart' : (name == "window_start") = false := beq_eq_false_iff_ne.2 hstart
      have hstop' : (name == "window_end") = false := beq_eq_false_iff_ne.2 hstop
      cases start <;> cases stop <;>
        simp [params, between, Http.EventsRequest.boundValue, Value.isNull, List.lookup_cons,
          hstart', hstop']

theorem exists_condition {start stop : Option Int} (withDuration : Bool) {name : String} {n : Int}
    (hn : Binds start stop name n) :
    ∃ c ∈ (between start stop withDuration).conditions, c ≠ "" ∧ name ∈ Placeholder.names c := by
  rcases hn with ⟨rfl, rfl⟩ | ⟨rfl, rfl⟩
  · cases withDuration with
    | true => exact ⟨_, List.mem_append_left _ (List.mem_singleton.2 rfl), by decide, by decide⟩
    | false => exact ⟨_, List.mem_append_left _ (List.mem_singleton.2 rfl), by decide, by decide⟩
  · exact ⟨_, List.mem_append_right _ (List.mem_singleton.2 rfl), by decide, by decide⟩

variable {params : NamedValues} {start stop start' stop' : Option Int} (withDuration : Bool)
  (hstart : InForce params "window_start" start start')
  (hstop : InForce params "window_end" stop stop')
include hstart hstop

theorem conditions_inForce :
    (between start stop withDuration).conditions
      = (between start' stop' withDuration).conditions := by
  cases hstart <;> cases hstop <;> cases withDuration <;> rfl

theorem lookup_inForce (name : String) :
    (params ++ (between start stop withDuration).params).lookup name
      = (params ++ (between start' stop' withDuration).params).lookup name := by
  rw [List.lookup_append, List.lookup_append, lookup_between, lookup_between]
  cases hname : params.lookup name with
  | some v => rfl
  | none =>
    have hstart' : name = "window_start" → start' = start :=
      fun h => hstart.eq_of_lookup_eq_none (h ▸ hname)
    have hstop' : name = "window_end" → stop' = stop :=
      fun h => hstop.eq_of_lookup_eq_none (h ▸ hname)
    split
    · rename_i h
      rw [hstart' h]
    · split
      · rename_i h
        rw [hstop' h]
      · rfl

theorem value_inForce {name : String} {n : Int} (hn : Binds start' stop' name n) :
    (params ++ (between start' stop' withDuration).params).lookup name = some (.int n) := by
  rw [List.lookup_append, lookup_between]
  rcases hn with ⟨rfl, rfl⟩ | ⟨rfl, rfl⟩
  · cases hstart with
    | kept h => rw [h]; rfl
    | replaced h => rw [h]; rfl
  · cases hstop with
    | kept h => rw [h]; rfl
    | replaced h => rw [h]; rfl

end Window

/-! ## Conjunctions -/

/-- The text is a conjunction: it has no `OR` outside parentheses. -/
def IsConjunction (params : NamedValues) (c : String) : Prop :=
  ∃ tokens g, conditionTokens? params c = some tokens ∧ Sql.Alternatives tokens [g] ∧
    tokens.any Sql.Token.isUnmatched = false

theorem isConjunction_congr {params params' : NamedValues} {c : String}
    (h : ∀ name, params.lookup name = params'.lookup name) :
    IsConjunction params c ↔ IsConjunction params' c := by
  rw [IsConjunction, conditionTokens?_congr fun name _ => ?_]
  · rfl
  · rw [Binding.ofName, h name]
    rfl

theorem inWindow_of_tests {start stop : Option Int} {withDuration : Bool}
    (hbounds : ∀ name n, Window.Binds start stop name n → Cell.fits n = true) {e : Event}
    (he : e.WellTyped) (h : ∀ c ∈ (Window.between start stop withDuration).conditions, c ≠ "" →
      (Window.test start stop withDuration c).holds (.ofEvent e) = true) :
    InWindow start stop withDuration e := by
  refine (passes_window_iff (f := ⟨.nobody, .nobody, .nobody, .nobody⟩) (o := .default) rfl hbounds
    he).1 ?_
  rw [Statement.passes, List.all_eq_true]
  intro c hc
  obtain ⟨hmem, hne⟩ := List.mem_filter.1 hc
  exact h c ((List.mem_append.1 hmem).resolve_right List.not_mem_nil) (bne_iff_ne.1 hne)

section
variable {f : Filters} {o : Options} {start stop : Option Int} {withDuration : Bool}
  (hvalues : ∀ name n, Window.Binds start stop name n →
    ((Window.between start stop withDuration).restrict o).params.lookup name = some (.int n))
include hvalues

/-- The bounds of a window are bound, so there are cells for them if its statement runs. -/
theorem fits_of_bindable (hbindable : ∀ name ∈ (windowStatement f o start stop withDuration).names,
      (Binding.ofName ((Window.between start stop withDuration).restrict o).params name).Bindable)
    {name : String} {n : Int} (hn : Window.Binds start stop name n) : Cell.fits n = true := by
  have hname : name ∈ (windowStatement f o start stop withDuration).names := by
    obtain ⟨c, hc, hne, hmem⟩ := Window.exists_condition withDuration hn
    refine List.mem_flatMap.2 ⟨c, List.mem_filter.2 ⟨List.mem_append_left _ hc, ?_⟩, hmem⟩
    exact bne_iff_ne.2 hne
  have hbound := hbindable name hname
  rw [Binding.ofName, hvalues name n hn] at hbound
  exact Binding.bindable_int_iff.1 hbound

variable (hconditions : ∀ c ∈ o.conditions, c ≠ "" →
  IsConjunction ((Window.between start stop withDuration).restrict o).params c)
include hconditions

/-- Each condition is read as one conjunction, which is a test for those of the window. -/
theorem exists_conjunctions : ∃ g : String → List Expr,
    (∀ c ∈ (windowStatement f o start stop withDuration).conditions, ∃ tokens,
      conditionTokens? ((Window.between start stop withDuration).restrict o).params c
        = some tokens ∧ Sql.Alternatives tokens [g c] ∧
          tokens.any Sql.Token.isUnmatched = false) ∧
    ∀ c ∈ (Window.between start stop withDuration).conditions, c ≠ "" →
      g c = [Window.test start stop withDuration c] := by
  have hread : ∀ c ∈ (Window.between start stop withDuration).conditions ++ o.conditions, c ≠ "" →
      ∃ g, (∃ tokens,
        conditionTokens? ((Window.between start stop withDuration).restrict o).params c
          = some tokens ∧ Sql.Alternatives tokens [g] ∧
            tokens.any Sql.Token.isUnmatched = false) ∧
          (c ∈ (Window.between start stop withDuration).conditions →
            g = [Window.test start stop withDuration c]) := by
    intro c hc hne
    -- The caller may give a condition of the window once more.
    by_cases hwindow : c ∈ (Window.between start stop withDuration).conditions
    · obtain ⟨name, n, htest, hn⟩ := Window.exists_isTest hwindow
      exact ⟨_, htest.text (hvalues name n hn), fun _ => rfl⟩
    · have hcaller : c ∈ o.conditions := (List.mem_append.1 hc).resolve_left hwindow
      obtain ⟨tokens, g, hg⟩ := hconditions c hcaller hne
      exact ⟨g, ⟨tokens, hg⟩, fun h => absurd h hwindow⟩
  choose! g hg htest using hread
  refine ⟨g, fun c hc => ?_, fun c hc hne => htest c (List.mem_append_left _ hc) hne hc⟩
  obtain ⟨hmem, hne⟩ := List.mem_filter.1 hc
  exact hg c hmem (bne_iff_ne.1 hne)

/-- **Listed events lie in the window** and follow the rule of the listing, whatever conjunctions
the caller adds. -/
theorem listed_of_execute {t : Tables} (ht : t.Sound) {events : List Event}
    (h : (windowStatement f o start stop withDuration).execute (some t) = .ok events) :
    f.Fits ∧ (∀ name n, Window.Binds start stop name n → Cell.fits n = true) ∧
      ∀ e ∈ events, Listed f o.showHidden t e ∧ InWindow start stop withDuration e := by
  obtain ⟨g, hg, htest⟩ := exists_conjunctions (f := f) hvalues hconditions
  obtain ⟨order, hreads⟩ : ∃ order, (windowStatement f o start stop withDuration).Reads
      (fun c => [g c]) order := Statement.reads_of_execute hg h
  obtain ⟨-, ⟨hfits, -, hbindable⟩, rfl⟩ := hreads.execute_eq_ok_iff.1 h
  have hbounds : ∀ name n, Window.Binds start stop name n → Cell.fits n = true :=
    fun _ _ hn => fits_of_bindable hvalues hbindable hn
  refine ⟨hfits, hbounds, fun e he => ?_⟩
  obtain ⟨row, hrow, rfl⟩ := List.mem_map.1 (mem_of_mem_cut he)
  obtain ⟨hjoined, hholds⟩ := List.mem_filter.1 ((List.mergeSort_perm _ _).mem_iff.1 hrow)
  rw [joinedRows_eq ht] at hjoined
  obtain ⟨e, hbest, rfl⟩ := List.mem_map.1 hjoined
  obtain ⟨hstored, hbest⟩ := List.mem_filter.1 hbest
  rw [anyHolds_pasted_of_singletons (by simp), Bool.and_eq_true, List.all_eq_true] at hholds
  refine ⟨(listed_iff ht _ _ _).2 ⟨hstored, of_decide_eq_true hbest, hholds.1⟩, ?_⟩
  refine inWindow_of_tests hbounds (ht.events e hstored) fun c hc hne => ?_
  have hmem : c ∈ (windowStatement f o start stop withDuration).conditions :=
    List.mem_filter.2 ⟨List.mem_append_left _ hc, bne_iff_ne.2 hne⟩
  have hall := hholds.2 [g c] (List.mem_map_of_mem hmem)
  rw [htest c hc hne] at hall
  obtain ⟨name, n, hisTest, -⟩ := Window.exists_isTest hc
  rw [← hisTest.onEvents]
  simpa [Sql.anyHolds] using hall

end

end Listing

namespace Store

open Listing

/-- Listings are the same if the same value is left over and their statements run in the same way.
-/
theorem rawEvents_eq_of_execute {values : ByDimension Value} {o o' : Options}
    (hpage : checkPage o' = checkPage o) (h : ∀ f, Filters.coerce values = .ok f →
      f.allNone = false → orphan? o' = orphan? o ∧
        (orphan? o = none → (Statement.mk f o').execute = (Statement.mk f o).execute)) :
    rawEvents values o' = rawEvents values o := by
  unfold rawEvents plan build
  rw [hpage]
  cases checkPage o with
  | error e => rfl
  | ok _ =>
    cases hf : Filters.coerce values with
    | error e => rfl
    | ok f =>
      simp only [Except.mapError, bind, Except.bind]
      cases hactive : f.allNone with
      | true => rfl
      | false =>
        obtain ⟨horphan, hexecute⟩ := h f hf hactive
        cases (predicates f).isEmpty with
        | true => rfl
        | false =>
          rw [horphan]
          cases hleft : orphan? o with
          | some name => rfl
          | none => exact congrArg query (hexecute hleft)

/-- **A listing depends on the values of the names in its conditions only.** -/
theorem rawEvents_congr {o : Options} {params : NamedValues}
    (h : ∀ c ∈ o.conditions, SameValues params o.params c) (values : ByDimension Value) :
    rawEvents values (o.valued params) = rawEvents values o :=
  rawEvents_eq_of_execute rfl fun f _ _ => ⟨orphan?_congr h, fun _ => execute_congr h f⟩

theorem eventsInWindow_congr {o : Options} {params : NamedValues} {w : Window}
    (h : ∀ c ∈ w.conditions ++ o.conditions, SameValues params o.params c)
    (values : ByDimension Value) :
    eventsInWindow values w (o.valued params) = eventsInWindow values w o := by
  have hsame : ∀ c ∈ (w.restrict o).conditions,
      SameValues (params ++ w.params) (w.restrict o).params c := by
    intro c hc name hname
    rw [Window.restrict, List.lookup_append, List.lookup_append, h c hc name hname]
  exact rawEvents_congr hsame values

theorem execute_of_run {values : ByDimension Value} {f : Filters}
    (hf : Filters.coerce values = .ok f) {o : Options} {c : Connection} {events : List Event}
    (h : (rawEvents values o).run c = (.ok events, c)) :
    events = [] ∨ (Statement.mk f o).execute c.tables = .ok events := by
  rcases exists_execute_of_run h with rfl | ⟨s, hplan, hexecute⟩
  · exact .inl rfl
  · rw [eq_of_plan_eq_some hf hplan] at hexecute
    exact .inr hexecute

/-! ## Bounds of a session -/

section
variable {params : NamedValues} {start stop start' stop' : Option Int} (withDuration : Bool)
  (hstart : Window.InForce params "window_start" start start')
  (hstop : Window.InForce params "window_end" stop stop')
include hstart hstop

/-- **A window is the window between the bounds in force.** -/
theorem eventsInWindow_inForce (values : ByDimension Value) {o : Options} (ho : o.params = params) :
    eventsInWindow values (.between start stop withDuration) o
      = eventsInWindow values (.between start' stop' withDuration) o := by
  subst ho
  have hlookup := Window.lookup_inForce withDuration hstart hstop
  have hrestrict : (Window.between start' stop' withDuration).restrict o
      = ((Window.between start stop withDuration).restrict o).valued
        (o.params ++ (Window.between start' stop' withDuration).params) := by
    rw [Window.restrict, ← Window.conditions_inForce withDuration hstart hstop]
    rfl
  rw [eventsInWindow, eventsInWindow, hrestrict]
  exact (rawEvents_congr (fun c _ name _ => (hlookup name).symm) values).symm

variable {values : ByDimension Value} {f : Filters} (hf : Filters.coerce values = .ok f)
include hf

theorem listed_of_run_window {o : Options} (ho : o.params = params)
    (hconditions : ∀ text ∈ o.conditions, text ≠ "" →
      IsConjunction ((Window.between start stop withDuration).restrict o).params text)
    {c : Connection} {t : Tables} (ht : c.tables = some t) (hsound : t.Sound) {events : List Event}
    (h : (eventsInWindow values (.between start stop withDuration) o).run c = (.ok events, c))
    {e : Event} (he : e ∈ events) :
    f.Fits ∧ (∀ name n, Window.Binds start' stop' name n → Cell.fits n = true) ∧
      Listed f o.showHidden t e ∧ InWindow start' stop' withDuration e := by
  rw [eventsInWindow_inForce withDuration hstart hstop values ho] at h
  subst ho
  have hlookup := Window.lookup_inForce withDuration hstart hstop
  rcases execute_of_run hf h with rfl | hexecute
  · cases he
  · rw [ht] at hexecute
    obtain ⟨hfits, hbounds, hall⟩ := listed_of_execute
      (fun name n hn => Window.value_inForce withDuration hstart hstop hn)
      (fun text htext hne => (isConjunction_congr hlookup).1 (hconditions text htext hne)) hsound
      hexecute
    exact ⟨hfits, hbounds, hall e he⟩

theorem exists_run_inForce (hfits : f.Fits)
    (hbounds : ∀ name n, Window.Binds start' stop' name n → Cell.fits n = true) {showHidden : Bool}
    {e : Event} (he : e.WellTyped) (hcompetes : Competes f showHidden e)
    (hwindow : InWindow start' stop' withDuration e) :
    ∃ events, (eventsInWindow values (.between start stop withDuration)
        { Options.default with params, showHidden }).run (.opened (some ⟨[e], []⟩))
        = (.ok events, .opened (some ⟨[e], []⟩)) ∧ e ∈ events := by
  have hactive : f.allNone = false := hcompetes.admitted.allNone_eq_false
  have hsound : Tables.Sound ⟨[e], []⟩ := Tables.sound_singleton he
  -- Nothing but the bounds is named, and their values are the same without the caller's.
  have hdropped : eventsInWindow values (.between start' stop' withDuration)
      { Options.default with params, showHidden }
        = eventsInWindow values (.between start' stop' withDuration)
          { Options.default with showHidden } := by
    refine rawEvents_congr (o := (Window.between start' stop' withDuration).restrict
      { Options.default with showHidden }) (fun c hc name hname => ?_) values
    obtain ⟨x, n, htest, hn⟩ :=
      Window.exists_isTest ((List.mem_append.1 hc).resolve_right List.not_mem_nil)
    rw [htest.lookedUp, or_self] at hname
    rw [htest.names name hname, Window.value_inForce withDuration hstart hstop hn]
    exact (Window.value_inForce withDuration (Window.inForce_self fun _ _ => rfl)
      (Window.inForce_self fun _ _ => rfl) hn).symm
  rw [eventsInWindow_inForce withDuration hstart hstop values rfl, hdropped]
  refine ⟨_, (run_window_iff hf rfl rfl rfl rfl hsound hactive (fun _ _ _ => rfl) hbounds
    withDuration _).2 ⟨rfl, hfits, _, plainStatement_reads f showHidden, rfl⟩, ?_⟩
  refine List.mem_filter.2 ⟨(mem_sortedEvents_iff hsound f showHidden false .timestart).2 ?_,
    decide_eq_true hwindow⟩
  refine ⟨List.mem_singleton_self e, hcompetes, List.forall_mem_nil _, ?_⟩
  refine List.forall_mem_singleton.2 fun _ _ => Cell.Outranks.irrefl _

end

/-! ## Windows that keep their bounds -/

/-- Whatever conjunctions the caller adds, all that is listed lies in the window. -/
def KeepsWindow (values : ByDimension Value) (params : NamedValues) (start stop : Option Int)
    (withDuration : Bool) : Prop :=
  ∀ (o : Options) (c : Connection) (t : Tables) (events : List Event), o.params = params →
    (∀ text ∈ o.conditions, text ≠ "" →
      IsConjunction ((Window.between start stop withDuration).restrict o).params text) →
    c.tables = some t → t.Sound →
    (eventsInWindow values (.between start stop withDuration) o).run c = (.ok events, c) →
      ∀ e ∈ events, InWindow start stop withDuration e

/-- **When a window keeps its bounds.** It does if the caller gives no values for the names of its
bounds. An integer that is given for such a name is the bound that counts: the window keeps its
bounds then exactly if no event lies between the bounds in force and outside the window, or nothing
is listed at all. All other values count for the conditions that name them only. -/
theorem eventsInWindow_bounds {values : ByDimension Value} {f : Filters}
    (hf : Filters.coerce values = .ok f) (params : NamedValues) (start stop : Option Int)
    (withDuration : Bool) :
    ((∀ name n, Window.Binds start stop name n → params.lookup name = none) →
      KeepsWindow values params start stop withDuration) ∧
    (∀ start' stop', Window.InForce params "window_start" start start' →
      Window.InForce params "window_end" stop stop' →
      (∀ o : Options, o.params = params →
        eventsInWindow values (.between start stop withDuration) o
          = eventsInWindow values (.between start' stop' withDuration) o) ∧
      (KeepsWindow values params start stop withDuration ↔
        (f.Fits → (∀ name n, Window.Binds start' stop' name n → Cell.fits n = true) →
          ∀ e : Event, e.WellTyped → f.Admits e → InWindow start' stop' withDuration e →
            InWindow start stop withDuration e))) ∧
    (∀ (o : Options) (params' : NamedValues), o.params = params →
      (∀ c ∈ (Window.between start stop withDuration).conditions ++ o.conditions,
        SameValues params' params c) →
      eventsInWindow values (.between start stop withDuration) (o.valued params')
        = eventsInWindow values (.between start stop withDuration) o) := by
  refine ⟨fun hnamed => ?_, fun start' stop' hstart hstop =>
    ⟨fun o ho => eventsInWindow_inForce withDuration hstart hstop values ho, ?_⟩,
    fun o params' ho h => eventsInWindow_congr (ho ▸ h) values⟩
  · intro o c t events ho hconditions ht hsound hrun e he
    have hstart : Window.InForce params "window_start" start start :=
      Window.inForce_self fun n hn => hnamed _ n (.inl ⟨rfl, hn⟩)
    have hstop : Window.InForce params "window_end" stop stop :=
      Window.inForce_self fun n hn => hnamed _ n (.inr ⟨rfl, hn⟩)
    exact (listed_of_run_window withDuration hstart hstop hf ho hconditions ht hsound hrun he).2.2.2
  · constructor
    · intro hkeeps hfits hbounds e he hadmits hwindow
      have hcompetes : Competes f true e := ⟨hadmits, fun h => (by cases h)⟩
      obtain ⟨events, hrun, hmem⟩ :=
        exists_run_inForce withDuration hstart hstop hf hfits hbounds he hcompetes hwindow
      exact hkeeps _ _ _ events rfl (List.forall_mem_nil _) rfl (Tables.sound_singleton he) hrun e
        hmem
    · intro hall o c t events ho hconditions ht hsound hrun e he
      obtain ⟨hfits, hbounds, hlisted, hwindow⟩ :=
        listed_of_run_window withDuration hstart hstop hf ho hconditions ht hsound hrun he
      exact hall hfits hbounds e (hsound.events e hlisted.stored) hlisted.competes.admitted hwindow

/-- A value for another name leaves a window its start, and an integer for the name of the start
takes its place. -/
theorem eventsInWindow_bounds_of_start :
    KeepsWindow ⟨.null, .null, .int 5, .null⟩ [("from", .int 0)] (some 200) none true ∧
      ¬ KeepsWindow ⟨.null, .null, .int 5, .null⟩ [("window_start", .int 0)] (some 200) none
        true := by
  have hcoerce : Filters.coerce ⟨.null, .null, .int 5, .null⟩
      = .ok ⟨.nobody, .nobody, .ofIds [5], .nobody⟩ := rfl
  constructor
  · refine (eventsInWindow_bounds hcoerce _ _ _ _).1 fun name n hn => ?_
    rcases hn with ⟨rfl, -⟩ | ⟨rfl, -⟩ <;> rfl
  · intro hkeeps
    have hforce := ((eventsInWindow_bounds hcoerce [("window_start", .int 0)] (some 200) none
      true).2.1 (some 0) none (.replaced rfl) .unbounded).2.1 hkeeps
    have hbounds : ∀ name n, Window.Binds (some 0) none name n → Cell.fits n = true := by
      intro name n hn
      rcases hn with ⟨-, h⟩ | ⟨-, h⟩ <;> cases h
      decide
    exact absurd (hforce (by decide) hbounds deadline (by decide) (by decide) (by decide))
      (by decide)

/-- With an integer for the name of the start an event is listed that is over before the start. -/
theorem eventsInWindow_of_earlier_start :
    ∃ events, (eventsInWindow ⟨.null, .null, .int 5, .null⟩ (.between (some 200) none true)
        { Options.default with params := [("window_start", .int 0)] }).run
          (.opened (some ⟨[deadline], []⟩)) = (.ok events, .opened (some ⟨[deadline], []⟩)) ∧
      deadline ∈ events ∧ ¬ InWindow (some 200) none true deadline := by
  have hcoerce : Filters.coerce ⟨.null, .null, .int 5, .null⟩
      = .ok ⟨.nobody, .nobody, .ofIds [5], .nobody⟩ := rfl
  have hbounds : ∀ name n, Window.Binds (some 0) none name n → Cell.fits n = true := by
    intro name n hn
    rcases hn with ⟨-, h⟩ | ⟨-, h⟩ <;> cases h
    decide
  have hstart : Window.InForce [("window_start", .int 0)] "window_start" (some 200) (some 0) :=
    .replaced rfl
  have hcompetes : Competes ⟨.nobody, .nobody, .ofIds [5], .nobody⟩ false deadline := by decide
  obtain ⟨events, hrun, hmem⟩ := exists_run_inForce true hstart .unbounded hcoerce (by decide)
    hbounds (by decide) hcompetes (by decide)
  exact ⟨events, hrun, hmem, by decide⟩

end Store

end EventCalendar
