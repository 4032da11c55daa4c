import EventCalendar.Proofs.ConjoinedConditions
import EventCalendar.Proofs.EventsPage

/-!
# Events of hidden modules

A listing joins each event with its module and drops the event if the module is marked invisible. So
it has what it would have without any modules, less the events of those that are marked:

* `joinedRows_eq_map`: each row is joined with one module at most.
* `selected_eq_filter`: **modules only take events away**, and change neither their order nor their
  number.
* `Store.run_rawEvents_shown`: what a listing has of the events that it would have without modules;
  a page is cut after the events of hidden modules are dropped.
* `Store.run_rawEvents_of_shown`: tables that show the same events make no difference.

The conditions of a listing and its order must not look at modules, and no condition may have an
`OR` outside parentheses.
-/

set_option autoImplicit false

namespace EventCalendar

def Tables.withoutModules (t : Tables) : Tables := { t with modules := [] }

theorem Tables.modulesSound_withoutModules (t : Tables) : t.withoutModules.ModulesSound :=
  ⟨List.forall_mem_nil _, List.nodup_nil⟩

/-- The row with the module that its event names. -/
def Tables.moduleRow (t : Tables) (row : Row) : Row := { row with module? := t.module? row.event }

namespace Listing

open Sql (OrderTerm)

/-- The module of a row makes no difference. -/
def IgnoresModule {α : Type} (g : Row → α) : Prop :=
  ∀ (row : Row) (m? : Option Module), g { row with module? := m? } = g row

theorem ignoresModule_keyTest (k : KeyTest) : IgnoresModule k.expr.holds := by
  intro row m?
  cases k with
  | isZero key => rfl
  | nonzero key => rfl
  | among key ids =>
    have hamong : ∀ (f : Cell.Affinity) (x : Cell) (is : List Int),
        Expr.isAmong { row with module? := m? } f x (is.map fun i => .constant (.int i))
          = Expr.isAmong row f x (is.map fun i => .constant (.int i)) := by
      intro f x is
      induction is with
      | nil => rfl
      | cons i is ih =>
        rw [List.map_cons, Expr.isAmong, Expr.isAmong, ih]
        rfl
    simp only [KeyTest.expr, Expr.holds, Expr.truth, Expr.eval, hamong]
    rfl

theorem ignoresModule_dimensionExpr (f : Filters) : IgnoresModule (dimensionExpr f).holds := by
  intro row m?
  simp only [dimensionExpr, Expr.holds_disjunction, Expr.holds_conjunction, List.any_map,
    List.all_map, Function.comp_def]
  simp only [ignoresModule_keyTest _ row m?]

/-! ## Rows -/

section
variable {t : Tables} (ht : t.ModulesSound) (f : Filters) (showHidden : Bool)

include ht in
/-- **Each row is joined with one module at most**, so modules do not change the number of rows. -/
theorem joinedRows_eq_map :
    joinedRows f showHidden t = (joinedRows f showHidden t.withoutModules).map t.moduleRow := by
  simp only [joinedRows, List.map_flatMap]
  refine List.flatMap_congr fun e _ => List.flatMap_congr fun b _ => ?_
  rw [withModules_eq ht, withModules_eq t.modulesSound_withoutModules]
  rfl

theorem module?_eq_none_of_mem {row : Row} (h : row ∈ joinedRows f showHidden t.withoutModules) :
    row.module? = none := by
  obtain ⟨e, -, h⟩ := List.mem_flatMap.1 h
  obtain ⟨b, -, h⟩ := List.mem_flatMap.1 h
  rw [withModules_eq t.modulesSound_withoutModules, List.mem_singleton] at h
  rw [h]
  rfl

theorem sortRows_moduleRow {order : List OrderTerm}
    (horder : ∀ term ∈ order, IgnoresModule term.key.eval) (rows : List Row) :
    sortRows order (rows.map t.moduleRow) = (sortRows order rows).map t.moduleRow := by
  have hcompare : ∀ a b,
      compareRows order (t.moduleRow a) (t.moduleRow b) = compareRows order a b := by
    intro a b
    induction order with
    | nil => rfl
    | cons term order ih =>
      obtain ⟨hterm, horder⟩ := List.forall_mem_cons.1 horder
      have hkey : ∀ row, term.key.eval (t.moduleRow row) = term.key.eval row := fun row => hterm row _
      have hrest := ih horder
      simp only [compareRows, List.foldr_cons] at hrest ⊢
      rw [hrest, hkey, hkey]
  refine (List.map_mergeSort fun a _ b _ => ?_).symm
  rw [hcompare]

include ht in
/-- **Modules only take events away.** -/
theorem selected_eq_filter {condition : Expr} {order : List OrderTerm} {p : Row → Bool}
    (hcondition : ∀ row, condition.holds row = (moduleRule.holds row && p row))
    (hp : IgnoresModule p)
    (horder : ∀ term ∈ order, IgnoresModule term.key.eval) :
    selected f showHidden condition order t
      = (selected f showHidden condition order t.withoutModules).filter
          fun e => decide (ModuleShown t e) := by
  have hrows : (joinedRows f showHidden t).filter (fun row => condition.holds row)
      = (((joinedRows f showHidden t.withoutModules).filter fun row => condition.holds row).filter
          fun row => decide (ModuleShown t row.event)).map t.moduleRow := by
    rw [joinedRows_eq_map ht, List.filter_map, List.filter_filter]
    congr 1
    refine List.filter_congr fun row hrow => ?_
    have hnone : moduleRule.holds row = true :=
      (holds_moduleRule t.modulesSound_withoutModules (module?_eq_none_of_mem f showHidden hrow)).2
        fun m hm => (List.not_mem_nil hm).elim
    have hshown : moduleRule.holds (t.moduleRow row) = decide (ModuleShown t row.event) :=
      Bool.eq_iff_iff.2 (by rw [holds_moduleRule ht rfl, decide_eq_true_eq]; rfl)
    show condition.holds (t.moduleRow row) = _
    rw [hcondition, hcondition, hnone, hshown, Tables.moduleRow, hp, Bool.true_and]
  have hevent : (fun row : Row => row.event) ∘ t.moduleRow = fun row => row.event := rfl
  rw [selected, selected, hrows, sortRows_moduleRow horder, List.map_map, hevent, sortRows_filter,
    List.filter_map]
  rfl

end

/-! ## Statements -/

/-- The conditions and the order of a listing are about its events and not about their modules, and
no condition has an `OR` outside parentheses. -/
structure Options.IgnoreModules (o : Options) : Prop where
  conditions : ∀ c ∈ o.conditions, c ≠ "" → ∃ tokens es,
    conditionTokens? o.params c = some tokens ∧ Sql.Alternatives tokens [es] ∧
      tokens.any Sql.Token.isUnmatched = false ∧ ∀ e ∈ es, IgnoresModule e.holds
  order : ∀ f terms, (Statement.mk f o).orderTokens?.bind Sql.orderOf? = some terms →
    ∀ term ∈ terms, IgnoresModule term.key.eval

theorem ignoreModules_default (offset limit : Option Int) (showHidden : Bool) :
    (Options.mk [] [] none offset limit showHidden).IgnoreModules where
  conditions := List.forall_mem_nil _
  order := by
    intro f terms hterms
    have hnone : (Statement.mk f ⟨[], [], none, offset, limit, showHidden⟩).order? = none := rfl
    rw [Statement.orderTokens?, Statement.orderItems, hnone, defaultOrder_isClause.tokens] at hterms
    have horder := defaultOrder_isClause.order
    rw [Option.bind_some, horder] at hterms
    cases hterms
    simp only [orderBy, List.forall_mem_cons]
    exact ⟨fun _ _ => rfl, fun _ _ => rfl, List.forall_mem_nil _⟩

section
variable {o : Options} (ho : o.IgnoreModules) {f : Filters}
include ho

theorem exists_reading : ∃ reading : String → List (List Expr), ∀ c ∈ (Statement.mk f o).conditions,
    (∃ tokens, conditionTokens? o.params c = some tokens ∧ Sql.Alternatives tokens (reading c) ∧
      tokens.any Sql.Token.isUnmatched = false) ∧
    (∃ es, reading c = [es]) ∧ IgnoresModule (Sql.anyHolds (reading c)) := by
  have hread : ∀ c, ∃ gss, c ∈ (Statement.mk f o).conditions →
      (∃ tokens, conditionTokens? o.params c = some tokens ∧ Sql.Alternatives tokens gss ∧
        tokens.any Sql.Token.isUnmatched = false) ∧
      (∃ es, gss = [es]) ∧ IgnoresModule (Sql.anyHolds gss) := by
    intro c
    by_cases hc : c ∈ (Statement.mk f o).conditions
    · obtain ⟨hmem, hne⟩ := List.mem_filter.1 hc
      obtain ⟨tokens, es, htokens, hread, hmatched, hes⟩ := ho.conditions c hmem (by simpa using hne)
      refine ⟨[es], fun _ => ⟨⟨tokens, htokens, hread, hmatched⟩, ⟨es, rfl⟩, fun row m? => ?_⟩⟩
      simp only [Sql.anyHolds, List.any_cons, List.any_nil, Bool.or_false]
      rw [Bool.eq_iff_iff, List.all_eq_true, List.all_eq_true]
      refine forall₂_congr fun e he => ?_
      have hholds : e.holds { row with module? := m? } = e.holds row := hes e he row m?
      rw [hholds]
    · exact ⟨[], fun h => absurd h hc⟩
  choose reading hreading using hread
  exact ⟨reading, hreading⟩

theorem exists_selection_split {selection : Sql.Selection}
    (hselection : (Statement.mk f o).selection? = some selection) :
    ∃ p, IgnoresModule p ∧ (∀ row, selection.condition.holds row = (moduleRule.holds row && p row)) ∧
      ∀ term ∈ selection.order, IgnoresModule term.key.eval := by
  obtain ⟨reading, hreading⟩ := exists_reading ho (f := f)
  obtain ⟨tokensOf, htokens, hread, -⟩ := Statement.readTokens fun c hc => (hreading c hc).1
  obtain ⟨e, he, hselected⟩ := Statement.selection?_eq htokens hread
  rw [hselection] at hselected
  obtain ⟨terms, hterms, rfl⟩ := Option.map_eq_some_iff.1 hselected.symm
  have hsingle : ∀ gss ∈ (Statement.mk f o).conditions.map reading, ∃ es, gss = [es] := by
    rw [List.forall_mem_map]
    exact fun c hc => (hreading c hc).2.1
  refine ⟨fun row => (dimensionExpr f).holds row && (o.showHidden || visibleExpr.holds row)
    && ((Statement.mk f o).conditions.map reading).all (Sql.anyHolds · row), fun row m? => ?_,
    fun row => ?_, ho.order f terms hterms⟩
  · have hvisible : visibleExpr.holds { row with module? := m? } = visibleExpr.holds row := rfl
    have hconditions : ((Statement.mk f o).conditions.map reading).all
          (Sql.anyHolds · { row with module? := m? })
        = ((Statement.mk f o).conditions.map reading).all (Sql.anyHolds · row) := by
      rw [Bool.eq_iff_iff, List.all_eq_true, List.all_eq_true, List.forall_mem_map,
        List.forall_mem_map]
      refine forall₂_congr fun c hc => ?_
      rw [(hreading c hc).2.2]
    simp only [ignoresModule_dimensionExpr f row m?, hvisible, hconditions]
  · rw [he, anyHolds_pasted_of_singletons hsingle, baseHolds]
    simp only [Bool.and_assoc]

variable {t : Tables} (ht : t.ModulesSound)
include ht

/-- **What a statement lists** is the page of what it would list without modules, less the events of
hidden ones. -/
theorem list_eq_cut {selection : Sql.Selection}
    (hselection : (Statement.mk f o).selection? = some selection) :
    (Statement.mk f o).list selection t = cut (o.offset.getD 0) (o.limit.filter (· != 0))
      ((selected f o.showHidden selection.condition selection.order t.withoutModules).filter
        fun e => decide (ModuleShown t e)) := by
  obtain ⟨p, hp, hcondition, horder⟩ := exists_selection_split ho hselection
  rw [Statement.list, selected_eq_filter ht f o.showHidden hcondition hp horder]
  rfl

/-- A statement fails just as it would without modules, or both list events. -/
theorem execute_shown :
    (∃ all events, (Statement.mk f (o.paged none none)).execute (some t.withoutModules) = .ok all ∧
      (Statement.mk f o).execute (some t.withoutModules) = .ok events ∧
      (Statement.mk f o).execute (some t) = .ok (cut (o.offset.getD 0) (o.limit.filter (· != 0))
        (all.filter fun e => decide (ModuleShown t e)))) ∨
    ∃ fault, (Statement.mk f o).execute (some t) = .error fault ∧
      (Statement.mk f o).execute (some t.withoutModules) = .error fault := by
  rcases (Statement.mk f o).execute_cases with ⟨selection, hselection, hlist⟩ | ⟨fault, hfault⟩
  · obtain ⟨reading, hreading⟩ := exists_reading ho (f := f)
    have hwithout := hlist t.withoutModules
    obtain ⟨order, hreads⟩ := Statement.reads_of_execute (fun c hc => (hreading c hc).1) hwithout
    obtain ⟨all, hall, -⟩ := hreads.exists_execute_unpaged hwithout
    refine .inl ⟨all, _, hall, hwithout, ?_⟩
    obtain ⟨-, -, t', -, selection', ht', -, hselection', -, rfl⟩ :=
      Statement.execute_eq_ok_iff.1 hall
    cases ht'
    cases hselection.symm.trans hselection'
    rw [hlist, list_eq_cut ho ht hselection]
    rfl
  · exact .inr ⟨fault, hfault _, hfault _⟩

theorem execute_of_shown {t' : Tables} (ht' : t'.ModulesSound) (hevents : t'.events = t.events)
    (hshown : ∀ e, ModuleShown t' e ↔ ModuleShown t e) :
    (Statement.mk f o).execute (some t') = (Statement.mk f o).execute (some t) := by
  refine Statement.outcome_congr fun selection hselection => ?_
  have hwithout : t'.withoutModules = t.withoutModules := congrArg (Tables.mk · []) hevents
  rw [list_eq_cut ho ht' hselection, list_eq_cut ho ht hselection, hwithout]
  simp only [hshown]

end

end Listing

namespace Store

open Listing

/-- A listing fails without a look at the session, lists nothing, or runs its statement. -/
theorem rawEvents_cases (values : ByDimension Value) (o : Options) :
    (∃ failure, ∀ c, (rawEvents values o).run c = (.error failure, c)) ∨
    ∃ f, Filters.coerce values = .ok f ∧ checkPage o = .ok () ∧
      (f.allNone = true ∨ f.allNone = false ∧
        ∀ c, (rawEvents values o).run c = (query (Statement.mk f o).execute).run c) := by
  unfold rawEvents
  cases hplan : plan values o with
  | error fault => exact .inl ⟨_, fun _ => rfl⟩
  | ok s? =>
    obtain ⟨hpage, f, hf, ⟨hnone, -⟩ | ⟨hactive, rfl⟩⟩ := of_plan_eq_ok hplan
    · exact .inr ⟨f, hf, hpage, .inl hnone⟩
    · exact .inr ⟨f, hf, hpage, .inr ⟨hactive, fun _ => rfl⟩⟩

section
variable {o : Options} (ho : o.IgnoreModules) (values : ByDimension Value) {c : Connection}
  {t : Tables} (ht : c.tables = some t) (hsound : t.ModulesSound)
include ho ht hsound

/-- **Modules only hide events.** A listing fails as it would without modules. The events that it
has are the page of those that it would have without modules and without a page, less those of
modules that are not shown. -/
theorem run_rawEvents_shown {d : Connection} (hfailed : d.failed = c.failed)
    (hwithout : d.tables = some t.withoutModules) :
    (∀ failure, (rawEvents values o).run c = (.error failure, c) ↔
      (rawEvents values o).run d = (.error failure, d)) ∧
    ∀ events, (rawEvents values o).run c = (.ok events, c) → ∃ all,
      (rawEvents values (o.paged none none)).run d = (.ok all, d) ∧
      events = cut (o.offset.getD 0) (o.limit.filter (· != 0))
        (all.filter fun e => decide (ModuleShown t e)) := by
  rcases rawEvents_cases values o with ⟨fault, hrun⟩ | ⟨f, hf, hpage, hnone | ⟨hactive, hrun⟩⟩
  · rw [hrun, hrun]
    exact ⟨fun failure => ⟨fun h => (by cases h; rfl), fun h => (by cases h; rfl)⟩,
      fun events h => (by cases h)⟩
  · have hpage' : checkPage (o.paged none none) = .ok () := rfl
    rw [rawEvents_of_allNone hf hnone hpage, rawEvents_of_allNone hf hnone hpage']
    refine ⟨fun failure => ⟨fun h => (by cases h), fun h => (by cases h)⟩, fun events h => ?_⟩
    cases h
    exact ⟨[], rfl, (cut_nil _ _).symm⟩
  · constructor
    · intro failure
      rw [hrun, hrun, run_query_eq_error_iff, run_query_eq_error_iff, hfailed, ht, hwithout]
      rcases execute_shown ho (f := f) hsound with ⟨all, events, -, hevents, hshown⟩ | ⟨fault, h, h'⟩
      · rw [hevents, hshown]
        simp
      · rw [h, h']
    · intro events h
      obtain ⟨hc, horphan, hexecute⟩ := (run_rawEvents_eq_ok_iff hf hactive hpage).1 h
      rw [ht] at hexecute
      rcases execute_shown ho (f := f) hsound with ⟨all, -, hall, -, hshown⟩ | ⟨fault, hfault, -⟩
      · refine ⟨all, ?_, Except.ok.inj (hexecute.symm.trans hshown)⟩
        rw [run_rawEvents_eq_ok_iff hf hactive (o := o.paged none none) rfl, hfailed, hwithout]
        exact ⟨hc, horphan, hall⟩
      · rw [hfault] at hexecute
        cases hexecute

/-- **Sessions that show the same events** are answered alike. -/
theorem run_rawEvents_of_shown {c' : Connection} {t' : Tables} (ht' : c'.tables = some t')
    (hsound' : t'.ModulesSound) (hfailed : c'.failed = c.failed) (hevents : t'.events = t.events)
    (hshown : ∀ e, ModuleShown t' e ↔ ModuleShown t e) :
    ((rawEvents values o).run c').1 = ((rawEvents values o).run c).1 := by
  rcases rawEvents_cases values o with ⟨fault, hrun⟩ | ⟨f, hf, hpage, hnone | ⟨hactive, hrun⟩⟩
  · rw [hrun, hrun]
  · rw [rawEvents_of_allNone hf hnone hpage]
    rfl
  · rw [hrun, hrun]
    cases hc : c.failed with
    | true => rw [run_query_of_failed _ hc, run_query_of_failed _ (hfailed.trans hc)]
    | false =>
      rw [run_query _ hc, run_query _ (hfailed.trans hc), ht, ht',
        execute_of_shown ho hsound hsound' hevents hshown]

end

end Store

end EventCalendar
