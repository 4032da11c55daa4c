import EventCalendar.Proofs.Retrieval
import EventCalendar.Proofs.WindowConditions
import Mathlib.Tactic.Choose

/-!
# Events that do not qualify

An event qualifies for a listing if it is stored and competes, and its module is not marked
invisible. All others are as good as deleted: they are not listed, and suppress no listed event.

* `listed_iff_qualifies`: the rule of a listing, said on the events that qualify.
* `sortedEvents_eq`: tables in which the same events qualify have the same sorted events.
* `execute_eq`: a statement whose conditions are tests of the event does not tell them apart.
* `sameAnswer_window`: **neither does a listing**, with any page, in a window or outside one.
-/

set_option autoImplicit false

namespace EventCalendar

namespace Listing

/-! ## Events that qualify -/

/-- The event is stored and competes, and its module is not marked invisible. -/
structure Qualifies (f : Filters) (showHidden : Bool) (t : Tables) (e : Event) : Prop where
  stored : e ∈ t.events
  competes : Competes f showHidden e
  moduleShown : ModuleShown t e

/-- The same events qualify. -/
def SameQualifying (f : Filters) (showHidden : Bool) (t t' : Tables) : Prop :=
  ∀ e, Qualifies f showHidden t e ↔ Qualifies f showHidden t' e

section
variable {f : Filters} {showHidden : Bool} {t t' : Tables}

/-- Events of one activity are of one module, so only those that qualify can outrank an event that
does. -/
theorem listed_iff_qualifies {e : Event} :
    Listed f showHidden t e ↔
      Qualifies f showHidden t e ∧ ∀ e', Qualifies f showHidden t e' → e'.activity = e.activity →
        ¬ (e'.get .priority).Outranks (e.get .priority) := by
  constructor
  · intro h
    refine ⟨⟨h.stored, h.competes, h.moduleShown⟩, fun e' h' ha => ?_⟩
    exact h.unrivalled e' h'.stored h'.competes ha
  · rintro ⟨h, hrivals⟩
    refine ⟨h.stored, h.competes, h.moduleShown, fun e' hstored hcompetes ha => ?_⟩
    refine hrivals e' ⟨hstored, hcompetes, fun m hm hname => ?_⟩ ha
    have hmodule : e'.get .modulename = e.get .modulename := congrArg Activity.modulename ha
    exact h.moduleShown m hm (hname.trans hmodule)

theorem sameQualifying_filter {p : Event → Bool}
    (hp : ∀ e, Qualifies f showHidden t e → p e = true) :
    SameQualifying f showHidden t { t with events := t.events.filter p } := by
  intro e
  constructor
  · intro h
    exact ⟨List.mem_filter.2 ⟨h.stored, hp e h⟩, h.competes, h.moduleShown⟩
  · intro h
    exact ⟨List.mem_of_mem_filter h.stored, h.competes, h.moduleShown⟩

variable (hsame : SameQualifying f showHidden t t')
include hsame

theorem SameQualifying.listed_iff (e : Event) :
    Listed f showHidden t e ↔ Listed f showHidden t' e := by
  rw [listed_iff_qualifies, listed_iff_qualifies, hsame e]
  refine and_congr_right fun _ => forall_congr' fun e' => ?_
  rw [hsame e']

/-- **Sorted events** depend on the events that qualify only. -/
theorem SameQualifying.sortedEvents_eq (ht : t.Sound) (ht' : t'.Sound) (p : Event → Bool)
    (descending : Bool) (c : Column) :
    sortedEvents f showHidden t (fun row => baseHolds f showHidden row && p row.event) descending c
      = sortedEvents f showHidden t' (fun row => baseHolds f showHidden row && p row.event)
          descending c := by
  have hids := nodup_id_sortedEvents ht f showHidden
    (fun row => baseHolds f showHidden row && p row.event) descending c
  have hids' := nodup_id_sortedEvents ht' f showHidden
    (fun row => baseHolds f showHidden row && p row.event) descending c
  refine eq_of_sorted_of_perm ?_ hids (pairwise_sortedEvents ht ..) (pairwise_sortedEvents ht' ..)
  refine (List.perm_ext_iff_of_nodup (.of_map _ hids) (.of_map _ hids')).2 fun e => ?_
  rw [mem_sortedEvents_and_iff ht, mem_sortedEvents_and_iff ht', hsame.listed_iff]

end

/-! ## Statements -/

theorem mem_of_mem_cut {α : Type} {offset : Int} {limit? : Option Int} {xs : List α} {x : α}
    (h : x ∈ cut offset limit? xs) : x ∈ xs := by
  unfold cut at h
  split at h
  · exact List.mem_of_mem_drop (List.mem_of_mem_take h)
  · exact List.mem_of_mem_drop h

namespace Statement

/-- The fault of a statement, if it has one, does not depend on the tables. -/
theorem outcome_cases (clash : Option ParameterClash) (values : Option (List Value))
    (tokens : Option (List Sql.Token)) (selection : Option Sql.Selection)
    (list : Sql.Selection → Tables → List Event) :
    (∃ sel, selection = some sel ∧
      ∀ t, outcome clash values (some t) tokens selection list = .ok (list sel t)) ∨
    ∃ fault, ∀ t, outcome clash values (some t) tokens selection list = .error fault := by
  cases clash with
  | some _ => exact .inr ⟨_, fun _ => rfl⟩
  | none =>
    cases values with
    | none => exact .inr ⟨_, fun _ => rfl⟩
    | some values =>
      cases tokens with
      | none => exact .inr ⟨_, fun _ => rfl⟩
      | some tokens =>
        cases selection with
        | none => exact .inr ⟨_, fun _ => rfl⟩
        | some sel =>
          cases hmatched : tokens.any Sql.Token.isUnmatched with
          | true => exact .inr ⟨.mismatched, fun _ => by simp only [outcome, hmatched, if_true]⟩
          | false =>
            cases hunfit : unfit? values with
            | some fault =>
              exact .inr ⟨.unfit fault, fun _ => by
                simp only [outcome, hmatched, hunfit, Bool.false_eq_true, if_false]⟩
            | none =>
              exact .inl ⟨sel, rfl, fun _ => by
                simp only [outcome, hmatched, hunfit, Bool.false_eq_true, if_false]⟩

theorem execute_cases (s : Statement) :
    (∃ selection, s.selection? = some selection ∧
      ∀ t, s.execute (some t) = .ok (s.list selection t)) ∨
    ∃ fault, ∀ t, s.execute (some t) = .error fault :=
  outcome_cases _ _ _ _ _

theorem outcome_congr {clash : Option ParameterClash} {values : Option (List Value)}
    {tokens : Option (List Sql.Token)} {selection : Option Sql.Selection}
    {list : Sql.Selection → Tables → List Event} {t t' : Tables}
    (h : ∀ sel, selection = some sel → list sel t = list sel t') :
    outcome clash values (some t) tokens selection list
      = outcome clash values (some t') tokens selection list := by
  rcases outcome_cases clash values tokens selection list with ⟨sel, hsel, hlist⟩ | ⟨fault, hfault⟩
  · rw [hlist, hlist, h sel hsel]
  · rw [hfault, hfault]

def passes (s : Statement) (test : String → Expr) (e : Event) : Bool :=
  s.conditions.all fun text => (test text).holds (.ofEvent e)

section
variable {s : Statement} {test : String → Expr}
  (hevents : ∀ text ∈ s.conditions, ∀ row,
    (test text).holds row = (test text).holds (.ofEvent row.event))
include hevents

theorem selectedRows_eq (t : Tables) :
    s.selectedRows (fun text => [[test text]]) t
      = (joinedRows s.filters s.options.showHidden t).filter fun row =>
          baseHolds s.filters s.options.showHidden row && s.passes test row.event := by
  rw [selectedRows]
  congr 1
  funext row
  rw [anyHolds_pasted_of_singletons (by simp), List.all_map]
  congr 1
  rw [passes, Bool.eq_iff_iff, List.all_eq_true, List.all_eq_true]
  refine forall₂_congr fun text htext => ?_
  rw [← hevents text htext row]
  simp [Sql.anyHolds]

variable {descending : Bool} {c : Column}
  (hreads : s.Reads (fun text => [[test text]]) (orderBy descending c))
include hreads

theorem list_eq {selection : Sql.Selection} (h : s.selection? = some selection) (t : Tables) :
    s.list selection t = cut s.offset s.limit? (sortedEvents s.filters s.options.showHidden t
      (fun row => baseHolds s.filters s.options.showHidden row && s.passes test row.event)
      descending c) := by
  obtain ⟨tokens, e, -, -, hselection, he⟩ := hreads.exists_selection
  rw [hselection] at h
  cases h
  rw [sortedEvents, ← selectedRows_eq hevents, list, selected, show e.holds = _ from funext he]
  rfl

/-- **A statement does not tell tables apart** in which the same events qualify. -/
theorem execute_eq {t t' : Tables} (ht : t.Sound) (ht' : t'.Sound)
    (hsame : SameQualifying s.filters s.options.showHidden t t') :
    s.execute (some t) = s.execute (some t') :=
  outcome_congr fun _ h => by
    rw [list_eq hevents hreads h, list_eq hevents hreads h,
      hsame.sortedEvents_eq ht ht' (s.passes test)]

theorem qualifies_of_execute {t : Tables} (ht : t.Sound) {events : List Event}
    (h : s.execute (some t) = .ok events) {e : Event} (he : e ∈ events) :
    Qualifies s.filters s.options.showHidden t e := by
  obtain ⟨-, -, t', -, selection, ht', -, hselection, -, rfl⟩ := execute_eq_ok_iff.1 h
  cases ht'
  rw [list_eq hevents hreads hselection] at he
  have hlisted := (mem_sortedEvents_and_iff ht s.filters s.options.showHidden (s.passes test)
    descending c).1 (mem_of_mem_cut he)
  exact (listed_iff_qualifies.1 hlisted.1).1

end

end Statement

/-! ## Windows -/

/-- The statement of a listing in a window. -/
abbrev windowStatement (f : Filters) (o : Options) (start stop : Option Int)
    (withDuration : Bool) : Statement :=
  ⟨f, (Window.between start stop withDuration).restrict o⟩

/-- The default order or one that a request may ask for. -/
def Options.IsOrdered (o : Options) : Prop :=
  o.order = none ∨ ∃ k : Http.SortKey, o.order = some k.clause

theorem Statement.conditions_eq_nil {f : Filters} {o : Options} (h : o.conditions = []) :
    (Statement.mk f o).conditions = [] := by
  rw [conditions, h]
  rfl

theorem Statement.no_conditions {f : Filters} {o : Options} (h : o.conditions = [])
    {p : String → Prop} : ∀ text ∈ (Statement.mk f o).conditions, p text := by
  rw [conditions_eq_nil h]
  exact List.forall_mem_nil _

theorem Statement.reads_clause {f : Filters} {o : Options} (hconditions : o.conditions = [])
    {k : Http.SortKey} (h : o.order = some k.clause) :
    (Statement.mk f o).Reads (fun _ => []) (orderBy k.isDescending k.column) := by
  have horder : (Statement.mk f o).order? = some k.clause := by
    rw [Statement.order?, h]
    cases k <;> rfl
  refine ⟨Statement.no_conditions hconditions,
    ⟨_, ?_, k.clause_isClause.order, by cases k <;> rfl⟩,
    by rw [Statement.PlainOrder, horder]; exact k.names_clause⟩
  rw [Statement.orderTokens?, Statement.orderItems, horder]
  exact k.clause_isClause.tokens

theorem Options.IsOrdered.exists_reads {f : Filters} {o : Options} (hconditions : o.conditions = [])
    (h : o.IsOrdered) :
    ∃ descending c, (Statement.mk f o).Reads (fun _ => []) (orderBy descending c) := by
  rcases h with h | ⟨k, h⟩
  · have horder : (Statement.mk f o).order? = none := by rw [Statement.order?, h]; rfl
    refine ⟨false, .timestart, Statement.no_conditions hconditions,
      ⟨_, ?_, defaultOrder_isClause.order, rfl⟩, by rw [Statement.PlainOrder, horder]; rfl⟩
    rw [Statement.orderTokens?, Statement.orderItems, horder]
    exact defaultOrder_isClause.tokens
  · exact ⟨k.isDescending, k.column, Statement.reads_clause hconditions h⟩

section
variable {f : Filters} {o : Options} {start stop : Option Int} {withDuration : Bool}
  (hconditions : o.conditions = [])
include hconditions

theorem window_isTest {text : String}
    (htext : text ∈ (windowStatement f o start stop withDuration).conditions) :
    ∃ name n, IsTest name n text (Window.test start stop withDuration text) ∧
      Window.Binds start stop name n := by
  have hmem : text ∈ (Window.between start stop withDuration).conditions ++ o.conditions :=
    List.mem_of_mem_filter htext
  rw [hconditions, List.append_nil] at hmem
  exact Window.exists_isTest hmem

variable (start stop withDuration) in
theorem window_onEvents : ∀ text ∈ (windowStatement f o start stop withDuration).conditions, ∀ row,
    (Window.test start stop withDuration text).holds row
      = (Window.test start stop withDuration text).holds (.ofEvent row.event) := by
  intro text htext
  obtain ⟨name, n, h, -⟩ := window_isTest hconditions htext
  exact h.onEvents

theorem window_names {name : String}
    (hname : name ∈ (windowStatement f o start stop withDuration).names) :
    ∃ n, Window.Binds start stop name n := by
  obtain ⟨text, htext, hname⟩ := List.mem_flatMap.1 hname
  obtain ⟨name', n, h, hn⟩ := window_isTest hconditions htext
  exact ⟨n, h.names name hname ▸ hn⟩

theorem window_no_clash : ∀ name ∈ (windowStatement f o start stop withDuration).names,
    name ∉ generatedNames (windowStatement f o start stop withDuration).items := by
  intro name hname
  obtain ⟨n, hn⟩ := window_names hconditions hname
  exact hn.notMem_generatedNames _

theorem orphan?_window : orphan? ((Window.between start stop withDuration).restrict o) = none := by
  rw [orphan?, Window.restrict, hconditions, List.append_nil, List.findSome?_eq_none_iff]
  intro text htext
  obtain ⟨name, n, h, -⟩ := Window.exists_isTest htext
  exact h.orphanName?_eq_none

variable (hnamed : ∀ name n, Window.Binds start stop name n → o.params.lookup name = none)
include hnamed

theorem window_ofName {name : String}
    (hname : name ∈ (windowStatement f o start stop withDuration).names) :
    ∃ n, Window.Binds start stop name n ∧
      Binding.ofName ((Window.between start stop withDuration).restrict o).params name
        = .scalar (.int n) := by
  obtain ⟨n, hn⟩ := window_names hconditions hname
  refine ⟨n, hn, ?_⟩
  rw [Binding.ofName, Window.lookup_params hn (hnamed name n hn)]
  rfl

theorem window_conditions_read :
    ∀ text ∈ (windowStatement f o start stop withDuration).conditions, ∃ tokens,
      conditionTokens? ((Window.between start stop withDuration).restrict o).params text
        = some tokens ∧ Sql.Alternatives tokens [[Window.test start stop withDuration text]] ∧
          tokens.any Sql.Token.isUnmatched = false := by
  intro text htext
  obtain ⟨name, n, h, hn⟩ := window_isTest hconditions htext
  exact h.text (Window.lookup_params hn (hnamed name n hn))

variable (withDuration)

/-- **A statement for a window** reads its texts as tests of the event on the bounds. -/
theorem window_reads {reading : String → List (List Expr)} {order : List Sql.OrderTerm}
    (h : (Statement.mk f o).Reads reading order) :
    (windowStatement f o start stop withDuration).Reads
      (fun text => [[Window.test start stop withDuration text]]) order :=
  ⟨window_conditions_read hconditions hnamed, h.order, h.plainOrder⟩

theorem window_execute_iff {reading : String → List (List Expr)} {order : List Sql.OrderTerm}
    (h : (Statement.mk f o).Reads reading order)
    (hbounds : ∀ name n, Window.Binds start stop name n → Cell.fits n = true)
    (hpage : (Statement.mk f o).PageFits) {t : Tables} {events : List Event} :
    (windowStatement f o start stop withDuration).execute (some t) = .ok events ↔
      f.Fits ∧ events = cut (Statement.mk f o).offset (Statement.mk f o).limit?
        ((sortRows order ((joinedRows f o.showHidden t).filter fun row =>
          baseHolds f o.showHidden row && (windowStatement f o start stop withDuration).passes
            (Window.test start stop withDuration) row.event)).map (·.event)) := by
  have hbindable : ∀ name ∈ (windowStatement f o start stop withDuration).names,
      (Binding.ofName (windowStatement f o start stop withDuration).options.params
        name).Bindable := by
    intro name hname
    obtain ⟨n, hn, hbinding⟩ := window_ofName hconditions hnamed hname
    rw [hbinding]
    exact Binding.bindable_int_iff.2 (hbounds name n hn)
  have hpage' : (windowStatement f o start stop withDuration).PageFits := hpage
  rw [(window_reads withDuration hconditions hnamed h).execute_eq_ok_iff,
    and_iff_right (window_no_clash hconditions),
    Statement.selectedRows_eq (window_onEvents start stop withDuration hconditions)]
  constructor
  · rintro ⟨⟨hfits, -, -⟩, hevents⟩
    exact ⟨hfits, hevents⟩
  · rintro ⟨hfits, hevents⟩
    exact ⟨⟨hfits, hpage', hbindable⟩, hevents⟩

theorem window_execute_tooWide {reading : String → List (List Expr)} {order : List Sql.OrderTerm}
    (h : (Statement.mk f o).Reads reading order) (hfits : ¬ f.Fits) (t : Tables) :
    (windowStatement f o start stop withDuration).execute (some t)
      = .error (.unfit .tooWide) := by
  refine ((window_reads withDuration hconditions hnamed h).execute_eq_tooWide_iff
    (window_no_clash hconditions) (fun name hname => ?_) t).2 fun hall => hfits hall.1
  obtain ⟨n, -, hbinding⟩ := window_ofName hconditions hnamed hname
  exact ⟨n, hbinding⟩

end

/-- The numbers of the page are not negative, and there are cells for them. -/
def Options.PageOk (o : Options) : Prop :=
  (∀ n, o.offset = some n → 0 ≤ n ∧ Cell.fits n = true) ∧
    ∀ n, o.limit = some n → 0 ≤ n ∧ Cell.fits n = true

theorem Options.PageOk.pageFits {o : Options} (h : o.PageOk) (f : Filters) :
    (Statement.mk f o).PageFits := by
  intro _
  constructor
  · cases hl : (Statement.mk f o).limit? with
    | none => decide
    | some n => exact (h.2 n (Option.filter_eq_some_iff.1 hl).1).2
  · cases ho : o.offset with
    | none => rw [Statement.offset, ho]; decide
    | some n => rw [Statement.offset, ho]; exact (h.1 n ho).2

end Listing

namespace Store

open Listing

/-! ## Answers -/

/-- Two sessions are answered alike, with events of a property if at all, and stay as they are. -/
def SameAnswer (action : Action (List Event)) (c c' : Connection) (p : Event → Prop) : Prop :=
  ∃ r, action.run c = (r, c) ∧ action.run c' = (r, c') ∧
    ∀ events, r = .ok events → ∀ e ∈ events, p e

section
variable {values : ByDimension Value} {f : Filters} (hf : Filters.coerce values = .ok f)
include hf

theorem eq_of_plan_eq_some {o : Options} {s : Statement}
    (h : plan values o = .ok (some s)) : s = ⟨f, o⟩ := by
  simp only [plan, build, hf, bind, Except.bind, pure, Except.pure,
    Except.mapError] at h
  repeat' split at h
  all_goals cases h
  rfl

/-- Sessions are answered alike if their tables make no difference to the statement. -/
theorem sameAnswer_of_execute {o : Options} {c c' : Connection} (hfailed : c.failed = c'.failed)
    {p : Event → Prop}
    (hexecute : (Statement.mk f o).execute c.tables = (Statement.mk f o).execute c'.tables)
    (hevents : ∀ events, (Statement.mk f o).execute c.tables = .ok events → ∀ e ∈ events, p e) :
    SameAnswer (rawEvents values o) c c' p := by
  unfold SameAnswer rawEvents
  cases hplan : plan values o with
  | error fault => exact ⟨_, rfl, rfl, fun _ h => (by cases h)⟩
  | ok s? =>
    cases s? with
    | none => exact ⟨.ok [], rfl, rfl, fun _ h => (by cases h; simp)⟩
    | some s =>
      rw [eq_of_plan_eq_some hf hplan]
      cases hc : c.failed with
      | true =>
        refine ⟨_, run_query_of_failed _ hc, run_query_of_failed _ (hfailed ▸ hc), fun _ h => ?_⟩
        cases h
      | false =>
        refine ⟨_, run_query _ hc, ?_, fun events h => ?_⟩
        · exact (run_query _ (hfailed ▸ hc)).trans (by rw [hexecute])
        · refine hevents events ?_
          cases hx : (Statement.mk f o).execute c.tables with
          | error fault => rw [hx] at h; cases h
          | ok found => rw [hx] at h; cases h; rfl

section
variable {o : Options} (hconditions : o.conditions = []) (horder : o.IsOrdered)
  {start stop : Option Int}
  (hnamed : ∀ name n, Window.Binds start stop name n → o.params.lookup name = none)
  {c : Connection} {t : Tables} (ht : c.tables = some t)
include hconditions horder hnamed ht

theorem sameAnswer_window {c' : Connection} {t' : Tables} (ht' : c'.tables = some t')
    (hfailed : c.failed = c'.failed) (hsound : t.Sound) (hsound' : t'.Sound)
    (hsame : SameQualifying f o.showHidden t t') (withDuration : Bool) :
    SameAnswer (eventsInWindow values (.between start stop withDuration) o) c c'
      (Qualifies f o.showHidden t) := by
  obtain ⟨descending, column, hplain⟩ := horder.exists_reads (f := f) hconditions
  have hreads := window_reads withDuration hconditions hnamed hplain
  have hevents := window_onEvents (f := f) start stop withDuration hconditions
  refine sameAnswer_of_execute hf hfailed ?_ fun events h e he => ?_
  · rw [ht, ht']
    exact Statement.execute_eq hevents hreads hsound hsound' hsame
  · rw [ht] at h
    exact Statement.qualifies_of_execute hevents hreads hsound h he

theorem exists_run_window (hc : c.failed = false) (hfits : f.Fits) (hpage : o.PageOk)
    (hbounds : ∀ name n, Window.Binds start stop name n → Cell.fits n = true)
    (withDuration : Bool) :
    ∃ events, (eventsInWindow values (.between start stop withDuration) o).run c
      = (.ok events, c) := by
  have hpageOk : ((Window.between start stop withDuration).restrict o).PageOk := hpage
  have hcheck : checkPage ((Window.between start stop withDuration).restrict o) = .ok () :=
    checkPage_eq_ok_iff.2 ⟨fun n h => (hpage.1 n h).1, fun n h => (hpage.2 n h).1⟩
  cases hactive : f.allNone with
  | true =>
    refine ⟨[], ?_⟩
    unfold eventsInWindow
    rw [rawEvents_of_allNone hf hactive hcheck]
    rfl
  | false =>
    obtain ⟨descending, column, hreads⟩ := horder.exists_reads (f := f) hconditions
    have hexecute := (window_execute_iff withDuration hconditions hnamed (t := t) hreads
      hbounds (hpage.pageFits f)).2 ⟨hfits, rfl⟩
    exact ⟨_, (run_rawEvents_eq_ok_iff hf hactive hcheck).2
      ⟨hc, orphan?_window hconditions, ht ▸ hexecute⟩⟩

end

/-- **Events that do not qualify make no difference.** Sessions whose tables have the same
qualifying events get the same answer from a listing in any order of a request and with any page,
and from one in a window: a list of qualifying events, as long as there are cells for all integers.
-/
theorem same_answers {o : Options} (hconditions : o.conditions = []) (horder : o.IsOrdered)
    {c c' : Connection} (hfailed : c.failed = c'.failed) {t t' : Tables} (ht : c.tables = some t)
    (ht' : c'.tables = some t') (hsound : t.Sound) (hsound' : t'.Sound)
    (hsame : SameQualifying f o.showHidden t t') :
    SameAnswer (rawEvents values o) c c' (Qualifies f o.showHidden t) ∧
    (Window.Unnamed o.params → ∀ start stop withDuration,
      SameAnswer (eventsInWindow values (.between start stop withDuration) o) c c'
        (Qualifies f o.showHidden t)) ∧
    (c.failed = false → f.Fits → o.PageOk →
      (∃ events, (rawEvents values o).run c = (.ok events, c)) ∧
      (Window.Unnamed o.params → ∀ start stop withDuration,
        (∀ name n, Window.Binds start stop name n → Cell.fits n = true) →
        ∃ events, (eventsInWindow values (.between start stop withDuration) o).run c
          = (.ok events, c))) := by
  have hopen : eventsInWindow values (.between none none false) o = rawEvents values o := by
    rw [eventsInWindow]
    exact congrArg _ (Window.restrict_open false o)
  have hunbound : ∀ name n, Window.Binds none none name n → o.params.lookup name = none := by
    rintro name n (⟨-, h⟩ | ⟨-, h⟩) <;> cases h
  refine ⟨?_, fun hnamed start stop withDuration => ?_, fun hc hfits hpage =>
    ⟨?_, fun hnamed start stop withDuration hbounds => ?_⟩⟩
  · rw [← hopen]
    exact sameAnswer_window hf hconditions horder hunbound ht ht' hfailed hsound hsound' hsame false
  · exact sameAnswer_window hf hconditions horder (fun name n h => hnamed.of_binds h) ht ht' hfailed
      hsound hsound' hsame withDuration
  · rw [← hopen]
    refine exists_run_window hf hconditions horder hunbound ht hc hfits hpage ?_ false
    rintro name n (⟨-, h⟩ | ⟨-, h⟩) <;> cases h
  · exact exists_run_window hf hconditions horder (fun name n h => hnamed.of_binds h) ht hc hfits
      hpage hbounds withDuration

end

def visibleRivals : Tables := { rivals with events := rivals.events.filter fun e => e.id != 3 }

/-- The rivals are listed as if the hidden one were deleted. -/
theorem same_answers_rivals :
    ∃ events, (rawEvents ⟨.null, .null, .int 5, .null⟩ .default).run (.opened (some rivals))
        = (.ok events, .opened (some rivals)) ∧
      (rawEvents ⟨.null, .null, .int 5, .null⟩ .default).run (.opened (some visibleRivals))
        = (.ok events, .opened (some visibleRivals)) := by
  have hcoerce : Filters.coerce ⟨.null, .null, .int 5, .null⟩
      = .ok ⟨.nobody, .nobody, .ofIds [5], .nobody⟩ := rfl
  have hsame : SameQualifying ⟨.nobody, .nobody, .ofIds [5], .nobody⟩ false rivals
      visibleRivals := by
    refine sameQualifying_filter fun e h => ?_
    have hstored : e = rival 1 1 .null ∨ e = rival 2 1 (.int 3) ∨ e = rival 3 0 (.int 1) := by
      simpa [rivals] using h.stored
    rcases hstored with rfl | rfl | rfl
    · rfl
    · rfl
    · exact absurd h.competes (by decide)
  have hpage : Options.default.PageOk := ⟨by simp [Options.default], by simp [Options.default]⟩
  have hfailed : (Connection.opened (some rivals)).failed
      = (Connection.opened (some visibleRivals)).failed := rfl
  obtain ⟨⟨r, hrun, hrun', -⟩, -, hok⟩ := same_answers hcoerce (o := .default) rfl (.inl rfl) hfailed
    rfl rfl (by decide) (by decide) hsame
  obtain ⟨events, hevents⟩ := (hok rfl (by decide) hpage).1
  have hr : r = .ok events := congrArg Prod.fst (hrun.symm.trans hevents)
  subst hr
  exact ⟨events, hrun, hrun'⟩

end Store

end EventCalendar
