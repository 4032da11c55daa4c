import EventCalendar.Proofs.Execution
import EventCalendar.Proofs.JoinedRows
import EventCalendar.Proofs.SortedRows
import EventCalendar.Store.Retrieval

/-!
# Listings of sound tables

What a session lists, and in which order:

* `run_rawEvents_eq_ok_iff`: a listing with an active dimension runs its statement, and leaves the
  session as it is.
* `anyHolds_pasted_of_singletons`: conditions without alternatives only restrict what is selected.
* `mem_sortedEvents_iff`, `pairwise_sortedEvents`: **the events that are selected** are those that
  the rule of the listing lists, in ascending order.

A listing without conditions follows its rule as long as there are cells for its ids.
-/

set_option autoImplicit false

namespace EventCalendar

namespace Store

open Listing

/-! ## Sessions -/

section
variable {α β : Type} {action : Action α} {next : α → Action β} {c c' : Connection}

theorem run_bind_of_ok {a : α} (h : action.run c = (.ok a, c')) :
    (action >>= next).run c = (next a).run c' := by
  have hbind : (action >>= next).run c
      = (ExceptT.bindCont next (action.run c).1).run (action.run c).2 := rfl
  rw [hbind, h]
  rfl

theorem run_bind_of_error {f : Failure} (h : action.run c = (.error f, c')) :
    (action >>= next).run c = (.error f, c') := by
  have hbind : (action >>= next).run c
      = (ExceptT.bindCont next (action.run c).1).run (action.run c).2 := rfl
  rw [hbind, h]
  rfl

end

theorem run_query (execute : Option Tables → Except ExecutionFault (List Event))
    {c : Connection} (hc : c.failed = false) :
    (query execute).run c = ((execute c.tables).mapError .ofExecutionFault, c) := by
  obtain ⟨committed, pending, failed, locked⟩ := c
  subst hc
  show (answer (execute (pending.or committed))).run ⟨committed, pending, false, locked⟩
    = ((execute (pending.or committed)).mapError .ofExecutionFault, _)
  cases execute (pending.or committed) <;> rfl

theorem run_query_of_failed (execute : Option Tables → Except ExecutionFault (List Event))
    {c : Connection} (hc : c.failed = true) :
    (query execute).run c = (.error (.query .pendingRollback), c) := by
  obtain ⟨committed, pending, failed, locked⟩ := c
  subst hc
  rfl

theorem run_query_eq_ok_iff {execute : Option Tables → Except ExecutionFault (List Event)}
    {c : Connection} {events : List Event} :
    (query execute).run c = (.ok events, c) ↔ c.failed = false ∧ execute c.tables = .ok events := by
  cases hc : c.failed with
  | true =>
    rw [run_query_of_failed _ hc]
    exact ⟨fun h => (by cases h), fun h => (by cases h.1)⟩
  | false =>
    rw [run_query _ hc, and_iff_right rfl]
    constructor
    · intro h
      cases hx : execute c.tables with
      | error fault => rw [hx] at h; cases h
      | ok found => rw [hx] at h; cases h; rfl
    · intro h
      rw [h]
      rfl

theorem isEmpty_predicates {f : Filters} (hactive : f.allNone = false) :
    (predicates f).isEmpty = false := by
  cases h : predicates f with
  | nil =>
    rw [predicates_eq_nil_iff.1 h] at hactive
    cases hactive
  | cons p ps => rfl

theorem plan_eq {values : ByDimension Value} {o : Options} {f : Filters}
    (hf : Filters.coerce values = .ok f) (hactive : f.allNone = false)
    (hpage : checkPage o = .ok ()) (horphan : orphan? o = none) :
    plan values o = .ok (some ⟨f, o⟩) := by
  have hne : (predicates f).isEmpty = false := isEmpty_predicates hactive
  simp only [plan, build, hpage, hf, hactive, hne, horphan, Except.mapError, bind,
    Except.bind, pure, Except.pure, Bool.false_eq_true, if_false]

theorem exists_run_rawEvents (values : ByDimension Value) (o : Options) (c : Connection) :
    ∃ result, (rawEvents values o).run c = (result, c) := by
  unfold rawEvents
  cases plan values o with
  | error fault => exact ⟨_, rfl⟩
  | ok s? =>
    cases s? with
    | none => exact ⟨_, rfl⟩
    | some s =>
      cases hc : c.failed with
      | true => exact ⟨_, run_query_of_failed _ hc⟩
      | false => exact ⟨_, run_query _ hc⟩

/-- What lists events lists none, or comes from the planned statement. -/
theorem exists_execute_of_run {values : ByDimension Value} {o : Options} {c : Connection}
    {events : List Event} (h : (rawEvents values o).run c = (.ok events, c)) :
    events = [] ∨ ∃ s, plan values o = .ok (some s) ∧ s.execute c.tables = .ok events := by
  unfold rawEvents at h
  cases hplan : plan values o with
  | error fault =>
    rw [hplan] at h
    cases h
  | ok s? =>
    rw [hplan] at h
    cases s? with
    | none =>
      cases h
      exact .inl rfl
    | some s => exact .inr ⟨s, rfl, (run_query_eq_ok_iff.1 h).2⟩

theorem rawEvents_of_allNone {values : ByDimension Value} {o : Options} {f : Filters}
    (hf : Filters.coerce values = .ok f) (hnone : f.allNone = true)
    (hpage : checkPage o = .ok ()) : rawEvents values o = pure [] := by
  have hplan : plan values o = .ok none := by
    simp [plan, hpage, hf, hnone, Except.mapError, bind, Except.bind, pure, Except.pure]
  unfold rawEvents
  rw [hplan]

section
variable {values : ByDimension Value} {o : Options} {f : Filters}
  (hf : Filters.coerce values = .ok f) (hactive : f.allNone = false)
  (hpage : checkPage o = .ok ())
include hf hactive hpage

theorem rawEvents_eq_query (horphan : orphan? o = none) :
    rawEvents values o = query (Statement.mk f o).execute := by
  unfold rawEvents
  rw [plan_eq hf hactive hpage horphan]
  rfl

theorem run_rawEvents_of_orphan {name : String} (horphan : orphan? o = some name)
    (c : Connection) : (rawEvents values o).run c = (.error (.orphan name), c) := by
  have hne : (predicates f).isEmpty = false := isEmpty_predicates hactive
  have hplan : plan values o = .error (.orphan name) := by
    simp only [plan, build, hpage, hf, hactive, hne, horphan, Except.mapError, bind,
      Except.bind, Bool.false_eq_true, if_false, throw, throwThe, MonadExceptOf.throw]
  unfold rawEvents
  rw [hplan]
  rfl

theorem run_rawEvents_eq_ok_iff {c : Connection} {events : List Event} :
    (rawEvents values o).run c = (.ok events, c) ↔
      c.failed = false ∧ orphan? o = none ∧
        (Statement.mk f o).execute c.tables = .ok events := by
  cases horphan : orphan? o with
  | none => rw [rawEvents_eq_query hf hactive hpage horphan, run_query_eq_ok_iff]; simp
  | some name =>
    rw [run_rawEvents_of_orphan hf hactive hpage horphan]
    exact ⟨fun h => (by cases h), fun h => (by cases h.2.1)⟩

end

end Store

namespace Listing

/-! ## Conditions of a statement -/

open Sql (anyHolds splice)

theorem anyHolds_foldl_splice {gss : List (List Expr)} {readings : List (List (List Expr))}
    {row : Row} (hg : anyHolds gss row = true) (hr : ∀ hss ∈ readings, anyHolds hss row = true) :
    anyHolds (readings.foldl splice gss) row = true := by
  induction readings generalizing gss with
  | nil => exact hg
  | cons hss readings ih =>
    obtain ⟨hh, hr⟩ := List.forall_mem_cons.1 hr
    exact ih (Sql.anyHolds_splice hg hh) hr

theorem anyHolds_foldl_splice_singletons (g : List Expr) {readings : List (List (List Expr))}
    (hr : ∀ hss ∈ readings, ∃ h, hss = [h]) (row : Row) :
    anyHolds (readings.foldl splice [g]) row
      = (g.all (·.holds row) && readings.all (anyHolds · row)) := by
  induction readings generalizing g with
  | nil => simp [anyHolds]
  | cons hss readings ih =>
    obtain ⟨⟨h, rfl⟩, hrest⟩ := List.forall_mem_cons.1 hr
    rw [List.foldl_cons, splice, ih (g ++ h) hrest, List.all_append, List.all_cons, Bool.and_assoc]
    simp [anyHolds]

section
variable {f : Filters} {showHidden : Bool} {readings : List (List (List Expr))} {row : Row}

theorem anyHolds_pasted_of_all (hbase : baseHolds f showHidden row = true)
    (hr : ∀ gss ∈ readings, anyHolds gss row = true) :
    anyHolds (pasted f showHidden readings) row = true := by
  simp only [baseHolds, Bool.and_eq_true, Bool.or_eq_true] at hbase
  refine anyHolds_foldl_splice (by simp [anyHolds, hbase.1]) fun gss hgss => ?_
  rcases List.mem_append.1 hgss with h | h
  · exact hr gss h
  · split at h
    · cases h
    · rename_i hs
      rw [List.mem_singleton.1 h]
      simpa [anyHolds, hs] using hbase.2

/-- **Conditions without alternatives** select the rows on which the rule and all of them hold. -/
theorem anyHolds_pasted_of_singletons (hr : ∀ gss ∈ readings, ∃ g, gss = [g]) :
    anyHolds (pasted f showHidden readings) row
      = (baseHolds f showHidden row && readings.all (anyHolds · row)) := by
  rw [pasted, anyHolds_foldl_splice_singletons, List.all_append, baseHolds]
  · cases showHidden <;> simp [anyHolds]
    grind
  · intro gss hgss
    rcases List.mem_append.1 hgss with h | h
    · exact hr gss h
    · split at h
      · cases h
      · exact ⟨_, List.mem_singleton.1 h⟩

end

theorem anyHolds_pasted_nil (f : Filters) (showHidden : Bool) :
    anyHolds (pasted f showHidden []) = baseHolds f showHidden := by
  funext row
  rw [anyHolds_pasted_of_singletons (List.forall_mem_nil _), List.all_nil, Bool.and_true]

/-! ## The statement without conditions -/

def plainStatement (f : Filters) (showHidden : Bool) : Statement :=
  ⟨f, { Options.default with showHidden }⟩

section
variable (f : Filters) (showHidden : Bool)

theorem plainStatement_reads :
    (plainStatement f showHidden).Reads (fun _ => []) (orderBy false .timestart) where
  conditions := by
    intro c hc
    cases hc
  order := ⟨_, defaultOrder_isClause.tokens, defaultOrder_isClause.order, rfl⟩
  plainOrder := rfl

/-- The statement without conditions runs exactly if there are cells for its ids. -/
theorem execute_plainStatement {t : Tables} {events : List Event} :
    (plainStatement f showHidden).execute (some t) = .ok events ↔
      f.Fits ∧ events = (sortRows (orderBy false .timestart)
        ((joinedRows f showHidden t).filter (baseHolds f showHidden))).map (·.event) := by
  have hrows : (plainStatement f showHidden).selectedRows (fun _ => []) t
      = (joinedRows f showHidden t).filter (baseHolds f showHidden) := by
    rw [Statement.selectedRows, ← anyHolds_pasted_nil]
    rfl
  have hnames : (plainStatement f showHidden).names = [] := rfl
  have hpage : (plainStatement f showHidden).PageFits := fun hpaged => by cases hpaged
  rw [(plainStatement_reads f showHidden).execute_eq_ok_iff, hrows, hnames]
  simp only [List.not_mem_nil, false_imp_iff, implies_true, true_and, and_true, hpage]
  rfl

end

/-! ## Selected events -/

/-- The events of the joined rows that satisfy a condition, sorted by a column, then by id. -/
def sortedEvents (f : Filters) (showHidden : Bool) (t : Tables) (p : Row → Bool)
    (descending : Bool) (c : Column) : List Event :=
  (sortRows (orderBy descending c) ((joinedRows f showHidden t).filter p)).map (·.event)

section
variable {t : Tables} (ht : t.Sound) (f : Filters) (showHidden : Bool) (p : Row → Bool)
include ht

theorem map_event_filter_joinedRows :
    ((joinedRows f showHidden t).filter p).map (·.event)
      = t.events.filter fun e => decide (HasBest f showHidden t e) && p (t.rowOf e) := by
  rw [joinedRows_eq ht, List.filter_map, List.map_map, List.filter_filter]
  have hevent : (fun row : Row => row.event) ∘ t.rowOf = id := rfl
  rw [hevent, List.map_id]
  congr 1
  funext e
  exact Bool.and_comm _ _

variable (descending : Bool) (c : Column)

theorem sortedEvents_perm :
    (sortedEvents f showHidden t p descending c).Perm
      (t.events.filter fun e => decide (HasBest f showHidden t e) && p (t.rowOf e)) := by
  rw [← map_event_filter_joinedRows ht f showHidden p]
  exact (List.mergeSort_perm _ _).map _

theorem sortedEvents_wellTyped {e : Event} (he : e ∈ sortedEvents f showHidden t p descending c) :
    e.WellTyped :=
  ht.events e <| List.mem_of_mem_filter <|
    (sortedEvents_perm ht f showHidden p descending c).mem_iff.1 he

theorem nodup_id_sortedEvents : ((sortedEvents f showHidden t p descending c).map (·.id)).Nodup := by
  refine ((sortedEvents_perm ht f showHidden p descending c).map _).nodup_iff.2 ?_
  exact ht.ids.sublist (List.filter_sublist.map _)

theorem pairwise_sortedEvents :
    (sortedEvents f showHidden t p descending c).Pairwise
      fun a b => (a.compareToward descending c b).isLE := by
  refine pairwise_sorted fun row hrow => ?_
  rw [joinedRows_eq ht] at hrow
  obtain ⟨e, he, rfl⟩ := List.mem_map.1 (List.mem_of_mem_filter hrow)
  exact ht.events e (List.mem_of_mem_filter he)

end

theorem mem_sortedEvents_and_iff {t : Tables} (ht : t.Sound) (f : Filters) (showHidden : Bool)
    (p : Event → Bool) (descending : Bool) (c : Column) {e : Event} :
    e ∈ sortedEvents f showHidden t (fun row => baseHolds f showHidden row && p row.event)
        descending c ↔ Listed f showHidden t e ∧ p e = true := by
  rw [(sortedEvents_perm ht _ _ _ _ _).mem_iff, listed_iff ht, List.mem_filter, Bool.and_eq_true,
    Bool.and_eq_true, decide_eq_true_eq, and_assoc, and_assoc]
  rfl

/-- **The events that are selected** are those that the rule lists. -/
theorem mem_sortedEvents_iff {t : Tables} (ht : t.Sound) (f : Filters) (showHidden : Bool)
    (descending : Bool) (c : Column) {e : Event} :
    e ∈ sortedEvents f showHidden t (baseHolds f showHidden) descending c ↔
      Listed f showHidden t e := by
  rw [(sortedEvents_perm ht _ _ _ _ _).mem_iff, listed_iff ht, List.mem_filter, Bool.and_eq_true,
    decide_eq_true_eq]

theorem sortedEvents_of_allNone {t : Tables} (ht : t.Sound) {f : Filters} (hnone : f.allNone = true)
    (showHidden descending : Bool) (c : Column) :
    sortedEvents f showHidden t (baseHolds f showHidden) descending c = [] := by
  refine List.eq_nil_iff_forall_not_mem.2 fun e he => ?_
  have hlisted := (mem_sortedEvents_iff ht f showHidden descending c).1 he
  rw [hlisted.competes.admitted.allNone_eq_false] at hnone
  cases hnone

end Listing

/-- The event begins earlier, or at the same time with a lower id. -/
def Event.Precedes (a b : Event) : Prop :=
  (a.get .timestart).integer < (b.get .timestart).integer ∨
    (a.get .timestart).integer = (b.get .timestart).integer ∧ a.id < b.id

theorem Event.precedes_of_isLE {a b : Event} (ha : a.WellTyped) (hb : b.WellTyped)
    (h : (a.compareToward false .timestart b).isLE) (hid : a.id ≠ b.id) : a.Precedes b := by
  obtain ⟨i, hi⟩ := ha.int (c := .timestart) rfl rfl
  obtain ⟨j, hj⟩ := hb.int (c := .timestart) rfl rfl
  have hrank : Ord.compare (Cell.int i).rank (Cell.int j).rank = .eq := Nat.compare_eq_eq.2 rfl
  have hcodes : Ord.compare (Cell.int i).codes (Cell.int j).codes = .eq := rfl
  simp only [compareToward, Bool.false_eq_true, if_false, compareBy, compareLex, compareOn, hi, hj,
    hrank, hcodes, Cell.integer, Ordering.eq_then, Ordering.isLE_then_iff_or, Int.compare_eq_lt,
    Int.compare_eq_eq] at h
  unfold Precedes
  rw [hi, hj]
  rcases h with h | ⟨h, hle⟩
  · exact .inl h
  · refine .inr ⟨h, ?_⟩
    have := Int.isLE_compare.1 hle
    omega

namespace Store

open Listing

theorem rawEvents_plain {values : ByDimension Value} {f : Filters}
    (hf : Filters.coerce values = .ok f) (hactive : f.allNone = false) {c : Connection}
    (hc : c.failed = false) (showHidden : Bool) :
    (rawEvents values { Options.default with showHidden }).run c
      = (((plainStatement f showHidden).execute c.tables).mapError .ofExecutionFault, c) := by
  rw [rawEvents_eq_query hf hactive rfl rfl, run_query _ hc]
  rfl

theorem rawEvents_plain_tooWide {values : ByDimension Value} {f : Filters}
    (hf : Filters.coerce values = .ok f) (hactive : f.allNone = false) (hfits : ¬ f.Fits)
    {c : Connection} (hc : c.failed = false) {t : Tables} (ht : c.tables = some t)
    (showHidden : Bool) :
    (rawEvents values { Options.default with showHidden }).run c = (.error .tooWide, c) := by
  have hnames : (plainStatement f showHidden).names = [] := rfl
  have hwide := ((plainStatement_reads f showHidden).execute_eq_tooWide_iff (by simp [hnames])
    (by simp [hnames]) t).2 fun h => hfits h.1
  rw [rawEvents_plain hf hactive hc, ht, hwide]
  rfl

/-- **A listing without conditions** has the events that its rule selects, if there are cells for
its ids. -/
theorem run_rawEvents_of_fits {values : ByDimension Value} {f : Filters}
    (hf : Filters.coerce values = .ok f) (hfits : f.Fits) {c : Connection} (hc : c.failed = false)
    {t : Tables} (ht : c.tables = some t) (hsound : t.Sound) (showHidden : Bool) :
    (rawEvents values { Options.default with showHidden }).run c
      = (.ok (sortedEvents f showHidden t (baseHolds f showHidden) false .timestart), c) := by
  cases hactive : f.allNone with
  | false =>
    have hlist := (execute_plainStatement f showHidden (t := t)).2 ⟨hfits, rfl⟩
    rw [rawEvents_plain hf hactive hc, ht, hlist]
    rfl
  | true =>
    rw [rawEvents_of_allNone hf hactive rfl, sortedEvents_of_allNone hsound hactive]
    rfl

theorem run_rawEvents_of_not_fits {values : ByDimension Value} {f : Filters}
    (hf : Filters.coerce values = .ok f) (hfits : ¬ f.Fits) {c : Connection}
    (hc : c.failed = false) {t : Tables} (ht : c.tables = some t) (showHidden : Bool) :
    (rawEvents values { Options.default with showHidden }).run c = (.error .tooWide, c) :=
  rawEvents_plain_tooWide hf (Filters.allNone_of_not_fits hfits) hfits hc ht showHidden

/-- **A listing follows its rule**: it has exactly the events that the rule lists, ascending by
start and id, unless an id is too wide for a cell. -/
theorem rawEvents_eq_rule {values : ByDimension Value} {f : Filters}
    (hf : Filters.coerce values = .ok f) (hactive : f.allNone = false) {c : Connection}
    (hc : c.failed = false) {t : Tables} (ht : c.tables = some t) (hsound : t.Sound)
    (showHidden : Bool) :
    (f.Fits → ∃ events,
      (rawEvents values { Options.default with showHidden }).run c = (.ok events, c) ∧
        events.Pairwise Event.Precedes ∧ ∀ e, e ∈ events ↔ Listed f showHidden t e) ∧
    (¬ f.Fits →
      (rawEvents values { Options.default with showHidden }).run c = (.error .tooWide, c)) := by
  refine ⟨fun hfits => ?_, fun hfits => rawEvents_plain_tooWide hf hactive hfits hc ht showHidden⟩
  have hlist := (execute_plainStatement f showHidden (t := t)).2 ⟨hfits, rfl⟩
  have hrun : (rawEvents values { Options.default with showHidden }).run c
      = (.ok (sortedEvents f showHidden t (baseHolds f showHidden) false .timestart),
        c) := by
    rw [rawEvents_plain hf hactive hc, ht, hlist]
    rfl
  refine ⟨_, hrun, ?_, fun e => mem_sortedEvents_iff hsound f showHidden false .timestart⟩
  have hids := nodup_id_sortedEvents hsound f showHidden (baseHolds f showHidden)
    false .timestart
  have hsorted := pairwise_sortedEvents hsound f showHidden (baseHolds f showHidden)
    false .timestart
  refine (hsorted.and (List.pairwise_map.1 hids)).imp_of_mem fun ha hb h => ?_
  exact Event.precedes_of_isLE (sortedEvents_wellTyped hsound _ _ _ _ _ ha)
    (sortedEvents_wellTyped hsound _ _ _ _ _ hb) h.1 h.2

def rival (id visible : Int) (priority : Cell) : Event :=
  .given id [(.courseid, .int 5), (.modulename, .text "quiz"), (.visible, .int visible),
    (.priority, priority)]

/-- Events of one activity: without a priority, with one, and a hidden one with a better one. -/
def rivals : Tables :=
  ⟨[rival 1 1 .null, rival 2 1 (.int 3), rival 3 0 (.int 1)], [⟨1, .text "quiz", .int 1⟩]⟩

/-- Of the rivals the one with the best priority among the visible ones is listed. -/
theorem rawEvents_rivals :
    ∃ events, (rawEvents ⟨.null, .null, .int 5, .null⟩ .default).run (.opened (some rivals))
        = (.ok events, .opened (some rivals)) ∧
      rival 1 1 .null ∉ events ∧ rival 2 1 (.int 3) ∈ events ∧ rival 3 0 (.int 1) ∉ events := by
  have hcoerce : Filters.coerce ⟨.null, .null, .int 5, .null⟩
      = .ok ⟨.nobody, .nobody, .ofIds [5], .nobody⟩ := rfl
  obtain ⟨events, hrun, -, hmem⟩ :=
    (rawEvents_eq_rule hcoerce rfl (c := .opened (some rivals)) rfl rfl (by decide) false).1
      (by decide)
  refine ⟨events, hrun, fun h => ?_, (hmem _).2 ⟨?_, ?_, ?_, ?_⟩, fun h => ?_⟩
  · exact absurd ((hmem _).1 h).unrivalled (by decide)
  · simp [rivals]
  · decide
  · decide
  · decide
  · exact absurd ((hmem _).1 h).competes (by decide)

/-- An id that is too wide for a cell makes the listing of an empty table fail. -/
theorem rawEvents_of_wide_id :
    Tables.empty.Sound ∧
      (rawEvents ⟨.null, .null, .list [.int (9223372036854775808)], .null⟩ Options.default).run
        (.opened (some .empty)) = (.error .tooWide, .opened (some .empty)) := by
  have hcoerce : Filters.coerce ⟨.null, .null, .list [.int (9223372036854775808)], .null⟩
      = .ok ⟨.nobody, .nobody, .ofIds [9223372036854775808], .nobody⟩ := rfl
  exact ⟨by decide, rawEvents_plain_tooWide hcoerce rfl (by decide) rfl rfl false⟩

end Store

end EventCalendar
