import EventCalendar.Proofs.ListingRule
import Mathlib.Data.List.Nodup

/-!
# The joined rows

With sound tables every stored event is joined with one best priority at most, and with one module
at most, so a listing looks at each event once:

* `filter_bestExpr`: the best priority that an event is joined with.
* `withModules_eq`: the module that an event is joined with.
* `joinedRows_eq`: **the joined rows** are those of the events with the best priority.
* `listed_iff`: the conditions of a listing select the events that its rule lists.
-/

set_option autoImplicit false

namespace EventCalendar.Listing

/-! ## Lists -/

section
variable {α : Type}

theorem nodup_eraseDups [BEq α] [LawfulBEq α] (xs : List α) : xs.eraseDups.Nodup := by
  induction hn : xs.length using Nat.strongRecOn generalizing xs with
  | ind n ih =>
    cases xs with
    | nil => simp
    | cons x xs =>
      rw [List.eraseDups_cons, List.nodup_cons]
      refine ⟨by simp [List.mem_eraseDups], ih _ ?_ _ rfl⟩
      have := List.length_filter_le (fun y => !y == x) xs
      simp only [List.length_cons] at hn
      omega

theorem nodup_map_snoc {β : Type} {f : α → β} {xs : List α} {x : α} (hxs : (xs.map f).Nodup)
    (hx : ∀ y ∈ xs, f y ≠ f x) : ((xs ++ [x]).map f).Nodup := by
  rw [List.map_append, List.map_singleton]
  refine List.nodup_append.2 ⟨hxs, List.nodup_singleton _, fun a ha b hb => ?_⟩
  obtain ⟨y, hy, rfl⟩ := List.mem_map.1 ha
  rw [List.mem_singleton.1 hb]
  exact hx y hy

theorem filter_eq_singleton {p : α → Bool} {xs : List α} {x : α} (hxs : xs.Nodup)
    (hx : x ∈ xs) (hp : ∀ y ∈ xs, p y = true ↔ y = x) : xs.filter p = [x] := by
  induction xs with
  | nil => cases hx
  | cons y xs ih =>
    obtain ⟨hy, hxs⟩ := List.nodup_cons.1 hxs
    obtain ⟨hpy, hpxs⟩ := List.forall_mem_cons.1 hp
    rcases List.mem_cons.1 hx with rfl | hx'
    · have hnone : xs.filter p = [] := by
        rw [List.filter_eq_nil_iff]
        intro z hz hpz
        exact hy ((hpxs z hz).1 hpz ▸ hz)
      rw [List.filter_cons_of_pos (hpy.2 rfl), hnone]
    · have hne : ¬ p y = true := fun h => hy (hpy.1 h ▸ hx')
      rw [List.filter_cons_of_neg hne, ih hxs hx' hpxs]

end

/-! ## Equal columns -/

section

/-- The event has the best priority of its activity. -/
def HasBest (f : Filters) (showHidden : Bool) (t : Tables) (e : Event) : Prop :=
  e.activity ∈ activities (candidates f showHidden t.events) ∧
    e.get .priority
      = leastPriority ((candidates f showHidden t.events).filter fun e' => e'.activity = e.activity)

instance (f : Filters) (showHidden : Bool) (t : Tables) (e : Event) :
    Decidable (HasBest f showHidden t e) := by
  unfold HasBest
  infer_instance

theorem holds_equalColumns {row : Row} {x y : Ref} :
    (equalColumns x y).holds row
      = (Expr.compareCells .eq x.affinity y.affinity (x.get row) (y.get row)).holds := by
  rw [equalColumns, Expr.holds, Expr.truth_compare]
  rfl

theorem holds_samePriority {row : Row} (hp : (row.event.get .priority).IsPriority)
    (hb : row.best.priority.IsPriority) :
    (Expr.or (equalColumns (.event .priority) (.best .priority))
      (.and (Expr.column (.event .priority)).isNull (Expr.column (.best .priority)).isNull)).holds row
        = true ↔ row.event.get .priority = row.best.priority := by
  rw [Expr.holds_or, Expr.holds_and, holds_equalColumns, Expr.holds_isNull, Expr.holds_isNull,
    Bool.or_eq_true, Bool.and_eq_true, decide_eq_true_eq, decide_eq_true_eq]
  simp only [Expr.eval, Ref.get, Best.get, Ref.affinity, Column.isText, Bool.false_eq_true, if_false]
  generalize row.event.get .priority = p at hp
  generalize row.best.priority = q at hb
  rcases hp with rfl | ⟨i, rfl⟩ <;> rcases hb with rfl | ⟨j, rfl⟩
  · simp
  · simp [Expr.compareCells, Truth.holds]
  · simp [Expr.compareCells, Truth.holds]
  · simp [Expr.compareCells_eq_int j .none]

/-- An event is joined with a best priority of its own activity that is its own. -/
theorem holds_bestExpr {row : Row} (he : row.event.WellTyped) {e' : Event} (he' : e'.WellTyped)
    (hactivity : row.best.activity = e'.activity) (hb : row.best.priority.IsPriority) :
    bestExpr.holds row = true ↔
      row.event.activity = row.best.activity ∧ row.event.get .priority = row.best.priority := by
  obtain ⟨name, hname⟩ := he.text (c := .modulename) rfl rfl
  obtain ⟨name', hname'⟩ := he'.text (c := .modulename) rfl rfl
  obtain ⟨number, hnumber⟩ := he.int (c := .instance) rfl rfl
  obtain ⟨number', hnumber'⟩ := he'.int (c := .instance) rfl rfl
  obtain ⟨kind, hkind⟩ := he.text (c := .eventtype) rfl rfl
  obtain ⟨kind', hkind'⟩ := he'.text (c := .eventtype) rfl rfl
  rw [bestExpr, Expr.holds_conjunction]
  simp only [List.all_cons, List.all_nil, Bool.and_true, Bool.and_eq_true,
    holds_samePriority he.isPriority hb, holds_equalColumns, Ref.get, Best.get, Ref.affinity,
    Column.isText, hactivity, Event.activity, hname, hname', hnumber, hnumber', hkind, hkind',
    Expr.compareCells_text, Expr.compareCells_eq_int, Activity.mk.injEq, decide_eq_true_eq,
    Cell.text.injEq, Cell.int.injEq, and_assoc, if_true, Bool.false_eq_true, if_false]

end

end EventCalendar.Listing

namespace EventCalendar

def Tables.module? (t : Tables) (e : Event) : Option Module :=
  t.modules.find? fun m => m.name = e.get .modulename

/-- Modules are of their declared types, and their names are unique. -/
structure Tables.ModulesSound (t : Tables) : Prop where
  typed : ∀ m ∈ t.modules, m.WellTyped
  names : (t.modules.map (·.name)).Nodup

theorem Tables.Sound.modulesSound {t : Tables} (ht : t.Sound) : t.ModulesSound :=
  ⟨ht.modules, ht.names⟩

/-- An event with its own priority as the best one, and its module. -/
def Tables.rowOf (t : Tables) (e : Event) : Row :=
  ⟨e, ⟨e.activity, e.get .priority⟩, t.module? e⟩

namespace Listing

/-! ## Modules of events -/

section
variable {t : Tables} (ht : t.ModulesSound)
include ht

theorem holds_moduleExpr (e : Event) (b : Best) {m : Module} (hm : m ∈ t.modules) :
    moduleExpr.holds ⟨e, b, some m⟩ = true ↔ m.name = e.get .modulename := by
  obtain ⟨name, hname⟩ := (ht.typed m hm).name
  rw [moduleExpr, holds_equalColumns]
  simp only [Ref.get, Ref.affinity, Column.isText, Option.map_some, Option.getD_some, Module.get,
    hname, if_true]
  rw [Expr.compareCells_eq_text _ _ (by decide), decide_eq_true_eq]
  exact eq_comm

/-- An event is joined with its module, or with none. -/
theorem withModules_eq (e : Event) (b : Best) :
    withModules t.modules e b = [⟨e, b, t.module? e⟩] := by
  have hfilter : (t.modules.filter fun m => moduleExpr.holds ⟨e, b, some m⟩)
      = (t.module? e).toList := by
    cases hm : t.module? e with
    | none =>
      rw [Tables.module?, List.find?_eq_none] at hm
      rw [Option.toList_none, List.filter_eq_nil_iff]
      intro m hmem h
      exact hm m hmem (by simpa using (holds_moduleExpr ht e b hmem).1 h)
    | some m =>
      have hmem := List.mem_of_find?_eq_some hm
      have hname : m.name = e.get .modulename := by simpa using List.find?_some hm
      refine filter_eq_singleton (List.Nodup.of_map _ ht.names) hmem fun m' hm' => ?_
      rw [holds_moduleExpr ht e b hm', ← hname]
      exact ⟨fun h => List.inj_on_of_nodup_map ht.names hm' hmem h, fun h => by rw [h]⟩
  unfold withModules
  rw [hfilter]
  cases t.module? e <;> rfl

omit ht in
theorem moduleRule_holds_of_eval {row : Row} {i : Int}
    (h : (Expr.column (.module .visible)).eval row = .int i) :
    moduleRule.holds row = true ↔ i = 1 := by
  rw [moduleRule, Expr.holds_or, Expr.holds_isNull, Expr.holds, Expr.truth_compare, h]
  simp [Expr.affinity, Ref.affinity, Expr.eval, Expr.compareCells_eq_int]

theorem holds_moduleRule {row : Row} (hrow : row.module? = t.module? row.event) :
    moduleRule.holds row = true ↔ ModuleShown t row.event := by
  have heval : (Expr.column (.module .visible)).eval row
      = ((t.module? row.event).map (·.visible)).getD .null := by
    rw [Expr.eval, Ref.get, hrow]
    rfl
  cases hm : t.module? row.event with
  | none =>
    rw [hm] at heval
    have hshown : ModuleShown t row.event := by
      intro m hmem hname
      rw [Tables.module?, List.find?_eq_none] at hm
      exact absurd (by simpa using hname) (hm m hmem)
    refine ⟨fun _ => hshown, fun _ => ?_⟩
    rw [moduleRule, Expr.holds_or, Expr.holds_isNull, heval]
    simp
  | some m =>
    have hmem := List.mem_of_find?_eq_some hm
    have hname : m.name = row.event.get .modulename := by simpa using List.find?_some hm
    obtain ⟨i, hi⟩ := (ht.typed m hmem).visible
    rw [hm, Option.map_some, Option.getD_some, hi] at heval
    rw [moduleRule_holds_of_eval heval]
    constructor
    · rintro rfl m' hm' hname'
      rw [List.inj_on_of_nodup_map ht.names hm' hmem (hname'.trans hname.symm), hi]
    · intro h
      have := h m hmem hname
      rw [hi] at this
      exact Cell.int.inj this

end

/-! ## Best priorities of events -/

section
variable {t : Tables} (ht : t.Sound) (f : Filters) (showHidden : Bool)
include ht

theorem candidate_wellTyped {e : Event} (he : e ∈ candidates f showHidden t.events) :
    e.WellTyped := ht.events e (List.mem_of_mem_filter he)

theorem bests_spec {b : Best} (hb : b ∈ bests (candidates f showHidden t.events)) :
    (∃ e' : Event, e'.WellTyped ∧ b.activity = e'.activity) ∧ b.priority.IsPriority ∧
      b.priority
        = leastPriority
          ((candidates f showHidden t.events).filter fun e => e.activity = b.activity) := by
  obtain ⟨a, ha, rfl⟩ := List.mem_map.1 hb
  rw [activities, List.mem_eraseDups, List.mem_map] at ha
  obtain ⟨e', he', rfl⟩ := ha
  refine ⟨⟨e', candidate_wellTyped ht f showHidden he', rfl⟩, ?_, rfl⟩
  exact isPriority_leastPriority fun e he =>
    candidate_wellTyped ht f showHidden (List.mem_of_mem_filter he)

omit ht in
theorem nodup_bests (es : List Event) : (bests es).Nodup := by
  refine List.Nodup.map_on (fun a _ b _ h => ?_) (nodup_eraseDups _)
  exact (Best.mk.inj h).1

/-- The best priority that an event is joined with: its own one, if it is the best. -/
theorem filter_bestExpr {e : Event} (he : e.WellTyped) (m? : Option Module) :
    (bests (candidates f showHidden t.events)).filter (fun b => bestExpr.holds ⟨e, b, m?⟩)
      = if HasBest f showHidden t e then [⟨e.activity, e.get .priority⟩] else [] := by
  have hholds : ∀ b ∈ bests (candidates f showHidden t.events),
      bestExpr.holds ⟨e, b, m?⟩ = true ↔ e.activity = b.activity ∧ e.get .priority = b.priority := by
    intro b hb
    obtain ⟨⟨e', he', ha⟩, hp, -⟩ := bests_spec ht f showHidden hb
    exact @holds_bestExpr ⟨e, b, m?⟩ he e' he' ha hp
  split
  · rename_i hbest
    refine filter_eq_singleton (nodup_bests _) ?_ fun b hb => ?_
    · rw [hbest.2]
      exact List.mem_map.2 ⟨e.activity, hbest.1, rfl⟩
    · rw [hholds b hb]
      constructor
      · rintro ⟨ha, hp⟩
        rw [ha, hp]
      · rintro rfl
        exact ⟨rfl, rfl⟩
  · rename_i hbest
    rw [List.filter_eq_nil_iff]
    intro b hb h
    obtain ⟨ha, hp⟩ := (hholds b hb).1 h
    refine hbest ⟨?_, ?_⟩
    · obtain ⟨a, hmem, rfl⟩ := List.mem_map.1 hb
      rw [ha]
      exact hmem
    · rw [hp, (bests_spec ht f showHidden hb).2.2, ha]

/-- **The joined rows** are those of the events with the best priority. -/
theorem joinedRows_eq :
    joinedRows f showHidden t
      = (t.events.filter fun e => HasBest f showHidden t e).map t.rowOf := by
  have hrow : ∀ e ∈ t.events,
      ((bests (candidates f showHidden t.events)).filter fun b => bestExpr.holds ⟨e, b, none⟩).flatMap
        (withModules t.modules e) = if HasBest f showHidden t e then [t.rowOf e] else [] := by
    intro e he
    rw [filter_bestExpr ht f showHidden (ht.events e he)]
    split
    · simp [withModules_eq ht.modulesSound, Tables.rowOf]
    · rfl
  rw [joinedRows, List.flatMap_congr hrow]
  induction t.events with
  | nil => rfl
  | cons e es ih =>
    rw [List.flatMap_cons, ih]
    by_cases he : HasBest f showHidden t e <;> simp [he]

/-! ## The outer condition -/

omit ht in
theorem holds_visibleExpr {row : Row} (he : row.event.WellTyped) :
    visibleExpr.holds row = true ↔ row.event.get .visible = .int 1 := by
  obtain ⟨i, hi⟩ := he.int (c := .visible) rfl rfl
  rw [visibleExpr, Expr.holds_eq_int rfl hi, hi]
  simp

theorem mem_candidates {e : Event} (he : e ∈ t.events) :
    e ∈ candidates f showHidden t.events ↔ Competes f showHidden e := by
  have hw : (Row.ofEvent e).event.WellTyped := ht.events e he
  have hd := holds_dimensionExpr hw.keyed f
  have hv := holds_visibleExpr hw
  rw [candidates, List.mem_filter, and_iff_right he, candidateExpr]
  cases showHidden with
  | true =>
    rw [if_pos rfl, hd]
    exact ⟨fun h => ⟨h, by simp⟩, fun h => h.admitted⟩
  | false =>
    rw [if_neg (by simp), Expr.holds_and, Bool.and_eq_true, hd, hv]
    exact ⟨fun h => ⟨h.1, fun _ => h.2⟩, fun h => ⟨h.admitted, h.visible rfl⟩⟩

/-- **An event that competes has the best priority** exactly if it is unrivalled. -/
theorem hasBest_iff_unrivalled {e : Event} (he : e ∈ t.events) (hc : Competes f showHidden e) :
    HasBest f showHidden t e ↔ Unrivalled f showHidden t e := by
  have hmem : e ∈ candidates f showHidden t.events := (mem_candidates ht f showHidden he).2 hc
  have hgroup : e ∈ (candidates f showHidden t.events).filter fun e' => e'.activity = e.activity :=
    List.mem_filter.2 ⟨hmem, by simp⟩
  have hactivity : e.activity ∈ activities (candidates f showHidden t.events) := by
    rw [activities, List.mem_eraseDups]
    exact List.mem_map_of_mem hmem
  rw [HasBest, and_iff_right hactivity, eq_leastPriority_iff (fun e' he' =>
    candidate_wellTyped ht f showHidden (List.mem_of_mem_filter he')) hgroup]
  constructor
  · intro h e' he' hc' ha
    exact h e' (List.mem_filter.2 ⟨(mem_candidates ht f showHidden he').2 hc', by simpa using ha⟩)
  · intro h e' he'
    obtain ⟨hcand, ha⟩ := List.mem_filter.1 he'
    have hstored : e' ∈ t.events := List.mem_of_mem_filter hcand
    exact h e' hstored ((mem_candidates ht f showHidden hstored).1 hcand) (by simpa using ha)

/-- The condition of a listing without further ones: the rule for the module, the predicates, and
the visibility. -/
def baseHolds (f : Filters) (showHidden : Bool) (row : Row) : Bool :=
  moduleRule.holds row && (dimensionExpr f).holds row && (showHidden || visibleExpr.holds row)

theorem baseHolds_iff {e : Event} (he : e ∈ t.events) :
    baseHolds f showHidden (t.rowOf e) = true ↔ ModuleShown t e ∧ Competes f showHidden e := by
  have hw : (t.rowOf e).event.WellTyped := ht.events e he
  rw [baseHolds, Bool.and_eq_true, Bool.and_eq_true, Bool.or_eq_true,
    holds_moduleRule ht.modulesSound rfl, holds_dimensionExpr hw.keyed, holds_visibleExpr hw,
    and_assoc]
  refine and_congr_right fun _ => ⟨fun h => ⟨h.1, fun hs => ?_⟩, fun h => ⟨h.admitted, ?_⟩⟩
  · rcases h.2 with hh | hv
    · rw [hs] at hh
      cases hh
    · exact hv
  · cases hs : showHidden with
    | true => exact .inl rfl
    | false => exact .inr (h.visible hs)

/-- **The conditions of a listing select the events that its rule lists.** -/
theorem listed_iff (e : Event) :
    Listed f showHidden t e ↔
      e ∈ t.events ∧ HasBest f showHidden t e ∧ baseHolds f showHidden (t.rowOf e) = true := by
  constructor
  · intro h
    exact ⟨h.stored, (hasBest_iff_unrivalled ht f showHidden h.stored h.competes).2 h.unrivalled,
      (baseHolds_iff ht f showHidden h.stored).2 ⟨h.moduleShown, h.competes⟩⟩
  · rintro ⟨he, hbest, hbase⟩
    obtain ⟨hm, hc⟩ := (baseHolds_iff ht f showHidden he).1 hbase
    exact ⟨he, hc, hm, (hasBest_iff_unrivalled ht f showHidden he hc).1 hbest⟩

end

end Listing

end EventCalendar
