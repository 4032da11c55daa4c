import EventCalendar.Proofs.Retrieval
import Mathlib.Data.List.Perm.Subperm

/-!
# Conditions of a listing

A listing pastes its conditions as they are behind its own tests, with `AND` before each of them.
`AND` binds tighter than an `OR` in the text of a condition, so a row may be selected on which
neither the rule of the listing nor all conditions hold:

* `IsCondition`: the text is a condition, whose alternatives its `OR`s outside parentheses separate.
* `Confined`: rows are selected only where the rule and all conditions hold, as they are if no
  condition has an `OR` outside parentheses (`confined_of_singletons`).
* `run_rawEvents_iff`: **what a listing with conditions lists**.

Conditions never lose an event that satisfies all of them; they add none exactly if the listing is
confined.
-/

set_option autoImplicit false

namespace EventCalendar

namespace Listing

open Sql (Alternatives Parses alternativesExpr anyHolds)

/-! ## Conditions -/

/-- The text is a condition on events that there is a value for each placeholder of. -/
structure IsCondition (params : NamedValues) (c : String) (alternatives : List (List Expr)) :
    Prop where
  text : ∃ tokens, conditionTokens? params c = some tokens ∧ Alternatives tokens alternatives ∧
    tokens.any Sql.Token.isUnmatched = false
  bound : ∀ name ∈ Placeholder.names c, (Binding.ofName params name).Bindable
  onEvents : ∀ row, (alternativesExpr alternatives).holds row
    = (alternativesExpr alternatives).holds (.ofEvent row.event)

theorem IsCondition.ne_empty {params : NamedValues} {c : String} {alternatives : List (List Expr)}
    (h : IsCondition params c alternatives) : c ≠ "" := by
  rintro rfl
  obtain ⟨tokens, htokens, halt, -⟩ := h.text
  cases (show conditionTokens? params "" = some [] from rfl).symm.trans htokens
  obtain ⟨n, hn⟩ := Sql.parses_iff_alternatives.2 ⟨_, halt, rfl⟩
  obtain ⟨-, p, hp, hnil, -⟩ := (Sql.reads_locally n).expression hn
  exact hp (List.append_eq_nil_iff.1 hnil.symm).1

theorem IsCondition.anyHolds_eq {params : NamedValues} {c : String}
    {alternatives : List (List Expr)} (h : IsCondition params c alternatives) (row : Row) :
    anyHolds alternatives row = (alternativesExpr alternatives).holds (.ofEvent row.event) := by
  obtain ⟨tokens, -, halt, -⟩ := h.text
  rw [← h.onEvents, halt.holds_expr]

/-- Every condition is true of the event. -/
def Satisfies (reading : String → List (List Expr)) (conditions : List String) (e : Event) : Bool :=
  conditions.all fun c => (alternativesExpr (reading c)).holds (.ofEvent e)

/-- Rows are selected only where the rule of the listing and all conditions hold. -/
def Confined (f : Filters) (showHidden : Bool) (t : Tables) (reading : String → List (List Expr))
    (conditions : List String) : Prop :=
  ∀ row ∈ joinedRows f showHidden t,
    anyHolds (pasted f showHidden (conditions.map reading)) row = true →
      baseHolds f showHidden row = true ∧ Satisfies reading conditions row.event = true

section
variable {params : NamedValues} {conditions : List String} {reading : String → List (List Expr)}
  (h : ∀ c ∈ conditions, IsCondition params c (reading c))
include h

theorem all_anyHolds_eq (row : Row) :
    (conditions.map reading).all (anyHolds · row) = Satisfies reading conditions row.event := by
  rw [List.all_map, Satisfies, Bool.eq_iff_iff, List.all_eq_true, List.all_eq_true]
  refine forall₂_congr fun c hc => ?_
  rw [Function.comp_apply, (h c hc).anyHolds_eq]

/-- Conditions without an `OR` outside parentheses only restrict a listing. -/
theorem confined_of_singletons (f : Filters) (showHidden : Bool) (t : Tables)
    (hone : ∀ c ∈ conditions, (reading c).length = 1) :
    Confined f showHidden t reading conditions := by
  have hsingle : ∀ gss ∈ conditions.map reading, ∃ g, gss = [g] := by
    intro gss hgss
    obtain ⟨c, hc, rfl⟩ := List.mem_map.1 hgss
    exact List.length_eq_one_iff.1 (hone c hc)
  intro row _ hrow
  rw [anyHolds_pasted_of_singletons hsingle, all_anyHolds_eq h, Bool.and_eq_true] at hrow
  exact hrow

theorem anyHolds_pasted_of_satisfies {f : Filters} {showHidden : Bool} {row : Row}
    (hrow : (baseHolds f showHidden row && Satisfies reading conditions row.event) = true) :
    anyHolds (pasted f showHidden (conditions.map reading)) row = true := by
  rw [Bool.and_eq_true, ← all_anyHolds_eq h, List.all_eq_true] at hrow
  exact anyHolds_pasted_of_all hrow.1 hrow.2

end

section
variable {f : Filters} {o : Options} {reading : String → List (List Expr)}
  (h : ∀ text ∈ o.conditions, IsCondition o.params text (reading text))
include h

theorem conditions_eq_of_isCondition : (Statement.mk f o).conditions = o.conditions := by
  rw [Statement.conditions, List.filter_eq_self]
  intro text htext
  simpa using (h text htext).ne_empty

theorem reads_of_isCondition {order : List Sql.OrderTerm}
    (hreads : (Statement.mk f { o with conditions := [] }).Reads reading order) :
    (Statement.mk f o).Reads reading order := by
  refine ⟨fun text htext => ?_, hreads.order, hreads.plainOrder⟩
  rw [conditions_eq_of_isCondition h] at htext
  exact (h text htext).text

theorem bindable_of_isCondition :
    ∀ name ∈ (Statement.mk f o).names, (Binding.ofName o.params name).Bindable := by
  intro name hname
  rw [Statement.names, conditions_eq_of_isCondition h] at hname
  obtain ⟨text, htext, hname⟩ := List.mem_flatMap.1 hname
  exact (h text htext).bound name hname

end

/-! ## Lists of rows -/

section
variable {α : Type} {p q : α → Bool} {xs : List α} (h : ∀ x, p x = true → q x = true)
include h

theorem length_filter_eq_iff :
    (xs.filter q).length = (xs.filter p).length ↔ ∀ x ∈ xs, q x = true → p x = true := by
  have hsub : (xs.filter p).Sublist (xs.filter q) := List.monotone_filter_right xs h
  constructor
  · intro hlength x hx hq
    have heq := hsub.eq_of_length hlength.symm
    have hmem : x ∈ xs.filter p := by
      rw [heq]
      exact List.mem_filter.2 ⟨hx, hq⟩
    exact (List.mem_filter.1 hmem).2
  · intro hall
    rw [List.filter_congr fun x hx => Bool.eq_iff_iff.2 ⟨hall x hx, h x⟩]

end

end Listing

namespace Store

open Listing
open Sql (anyHolds Alternatives)

section
variable {values : ByDimension Value} {f : Filters} {o : Options} {c : Connection} {t : Tables}
  {plain : List Event} {reading : String → List (List Expr)}
  (hf : Filters.coerce values = .ok f) (hactive : f.allNone = false)
  (hoffset : o.offset = none) (hlimit : o.limit = none) (ht : c.tables = some t)
  (hplain : (rawEvents values { o with conditions := [] }).run c = (.ok plain, c))
  (hconditions : ∀ text ∈ o.conditions, IsCondition o.params text (reading text))
include hf hactive hoffset hlimit ht hplain hconditions

/-- What a listing with conditions lists, where one without them lists anything at all. -/
theorem run_rawEvents_iff :
    ∃ order,
      plain = (sortRows order ((joinedRows f o.showHidden t).filter
        (baseHolds f o.showHidden))).map (·.event) ∧
      ∀ events, (rawEvents values o).run c = (.ok events, c) ↔
        orphan? o = none ∧
          (∀ name ∈ o.conditions.flatMap Placeholder.names,
            name ∉ generatedNames (Statement.mk f o).items) ∧
          events = (sortRows order ((joinedRows f o.showHidden t).filter
            (anyHolds (pasted f o.showHidden (o.conditions.map reading))))).map
              (·.event) := by
  have hpage : checkPage o = .ok () :=
    checkPage_eq_ok_iff.2 ⟨by simp [hoffset], by simp [hlimit]⟩
  obtain ⟨husable, -, hlist⟩ :=
    (run_rawEvents_eq_ok_iff (o := { o with conditions := [] }) hf hactive hpage).1 hplain
  obtain ⟨order, hreads⟩ :
      ∃ order, (Statement.mk f { o with conditions := [] }).Reads reading order :=
    Statement.reads_of_execute (List.forall_mem_nil _) hlist
  have hcut : ∀ events : List Event,
      cut (o.offset.getD 0) (o.limit.filter (· != 0)) events = events := by
    intro events
    rw [hoffset, hlimit]
    rfl
  rw [ht, hreads.execute_eq_ok_iff] at hlist
  obtain ⟨-, ⟨hfits, -, -⟩, hevents⟩ := hlist
  have hread : (Statement.mk f o).Reads reading order := reads_of_isCondition hconditions hreads
  have hpageFits : (Statement.mk f o).PageFits := by
    intro hpaged
    simp [Statement.isPaged, Statement.offset, Statement.limit?, hoffset, hlimit] at hpaged
  refine ⟨order, ?_, fun events => ?_⟩
  · rw [hevents, ← anyHolds_pasted_nil]
    exact hcut _
  · rw [run_rawEvents_eq_ok_iff hf hactive hpage, and_iff_right husable, ht, hread.execute_eq_ok_iff,
      and_iff_right (a := _ ∧ _ ∧ _) ⟨hfits, hpageFits, bindable_of_isCondition hconditions⟩,
      Statement.selectedRows, Statement.names, conditions_eq_of_isCondition hconditions]
    rw [show ∀ xs, cut (Statement.mk f o).offset (Statement.mk f o).limit? xs = xs from hcut]

/-- **When conditions only restrict a listing.** They never lose an event that satisfies all of
them. The listing lists just these events exactly if no value is given for what is no placeholder,
no placeholder has the name of a generated parameter, and rows are selected only where the rule and
all conditions hold; it is so if no condition has an `OR` outside parentheses. -/
theorem rawEvents_conditions :
    ((∃ events, (rawEvents values o).run c = (.ok events, c) ∧
        events.Perm (plain.filter (Satisfies reading o.conditions))) ↔
      orphan? o = none ∧
        (∀ name ∈ o.conditions.flatMap Placeholder.names,
          name ∉ generatedNames (Statement.mk f o).items) ∧
        Confined f o.showHidden t reading o.conditions) ∧
    (∀ events, (rawEvents values o).run c = (.ok events, c) →
      (plain.filter (Satisfies reading o.conditions)).Subperm events) ∧
    ((∀ text ∈ o.conditions, (reading text).length = 1) →
      Confined f o.showHidden t reading o.conditions) := by
  obtain ⟨order, hrule, hrun⟩ :=
    run_rawEvents_iff hf hactive hoffset hlimit ht hplain hconditions
  have hweaker : ∀ row,
      (baseHolds f o.showHidden row && Satisfies reading o.conditions row.event) = true →
        anyHolds (pasted f o.showHidden (o.conditions.map reading)) row = true :=
    fun _ => anyHolds_pasted_of_satisfies hconditions
  generalize hrows : joinedRows f o.showHidden t = rows at hrule hrun
  have hsatisfied : (plain.filter (Satisfies reading o.conditions)).Perm
      ((rows.filter fun row => baseHolds f o.showHidden row
        && Satisfies reading o.conditions row.event).map (·.event)) := by
    have hperm := ((List.mergeSort_perm (rows.filter (baseHolds f o.showHidden))
      fun a b => compareRows order a b != .gt).map (·.event)).filter
        (Satisfies reading o.conditions)
    rw [hrule, sortRows]
    refine hperm.trans (.of_eq ?_)
    rw [List.filter_map, List.filter_filter]
    congr 2
    funext row
    exact Bool.and_comm _ _
  refine ⟨?_, fun events hevents => ?_, confined_of_singletons hconditions _ _ _⟩
  · constructor
    · rintro ⟨events, hevents, hperm⟩
      obtain ⟨horphan, hnames, rfl⟩ := (hrun events).1 hevents
      refine ⟨horphan, hnames, fun row hrow hselected => ?_⟩
      rw [hrows] at hrow
      have hlength := (hperm.trans hsatisfied).length_eq
      rw [List.length_map, List.length_map, sortRows, List.length_mergeSort] at hlength
      exact Bool.and_eq_true_iff.1 ((length_filter_eq_iff hweaker).1 hlength row hrow hselected)
    · rintro ⟨horphan, hnames, hconfined⟩
      refine ⟨_, (hrun _).2 ⟨horphan, hnames, rfl⟩, ?_⟩
      refine .trans (((List.mergeSort_perm _ _).map _).trans (.of_eq ?_)) hsatisfied.symm
      congr 1
      refine List.filter_congr fun row hrow => Bool.eq_iff_iff.2 ⟨fun hselected => ?_, hweaker row⟩
      exact Bool.and_eq_true_iff.2 (hconfined row (hrows ▸ hrow) hselected)
  · obtain ⟨-, -, rfl⟩ := (hrun events).1 hevents
    refine hsatisfied.subperm.trans (.trans ?_ ((List.mergeSort_perm _ _).map _).symm.subperm)
    exact ((List.monotone_filter_right rows hweaker).map _).subperm

end

def lecture : Event :=
  .given 1 [(.courseid, .int 5), (.name, .text "lecture"), (.visible, .int 1)]

def meeting : Event :=
  .given 2 [(.userid, .int 4), (.name, .text "private"), (.visible, .int 1)]

def diary : Tables := ⟨[lecture, meeting], []⟩

def isLecture : Expr := .compare .eq (.column (.event .name)) (.constant (.text "lecture"))

def isPersonal : Expr := .compare .eq (.column (.event .userid)) (.constant (.int 4))

def lectureTokens : List Sql.Token :=
  [.word "e", .symbol .dot, .word "name", .symbol (.comparison .eq), .literal "lecture" 0]

def personalTokens : List Sql.Token :=
  [.word "e", .symbol .dot, .word "userid", .symbol (.comparison .eq), .integer 4]

theorem isLecture_isCondition : IsCondition [] "e.name = 'lecture'" [[isLecture]] where
  text := ⟨lectureTokens, rfl, .factor ⟨12, rfl⟩, rfl⟩
  bound := by simp [show Placeholder.names "e.name = 'lecture'" = [] from rfl]
  onEvents := fun _ => rfl

theorem alternatives_lecture_or_personal : Alternatives
    (lectureTokens ++ .word "or" :: personalTokens) [[isLecture], [isPersonal]] := by
  have hlecture : Alternatives lectureTokens [[isLecture]] := .factor ⟨12, rfl⟩
  exact .snoc hlecture (.part ⟨12, rfl⟩)

theorem isLecture_or_isPersonal_isCondition :
    IsCondition [] "e.name = 'lecture' OR e.userid = 4" [[isLecture], [isPersonal]] where
  text := ⟨lectureTokens ++ .word "or" :: personalTokens, rfl,
    alternatives_lecture_or_personal, rfl⟩
  bound := by simp [show Placeholder.names "e.name = 'lecture' OR e.userid = 4" = [] from rfl]
  onEvents := fun _ => rfl

theorem coerce_diary : Filters.coerce ⟨.null, .null, .int 5, .null⟩
    = .ok ⟨.nobody, .nobody, .ofIds [5], .nobody⟩ := rfl

theorem run_rawEvents_diary :
    (rawEvents ⟨.null, .null, .int 5, .null⟩ Options.default).run (.opened (some diary))
      = (.ok (sortedEvents ⟨.nobody, .nobody, .ofIds [5], .nobody⟩ false diary
          (baseHolds ⟨.nobody, .nobody, .ofIds [5], .nobody⟩ false) false .timestart),
        .opened (some diary)) := by
  refine (rawEvents_plain coerce_diary rfl (c := .opened (some diary)) rfl false).trans ?_
  rw [show (Connection.opened (some diary)).tables = some diary from rfl,
    (execute_plainStatement _ false).2 ⟨by decide, rfl⟩]
  rfl

theorem mem_diary_iff (e : Event) :
    e ∈ sortedEvents ⟨.nobody, .nobody, .ofIds [5], .nobody⟩ false diary
        (baseHolds ⟨.nobody, .nobody, .ofIds [5], .nobody⟩ false) false .timestart ↔
      e = lecture := by
  rw [mem_sortedEvents_iff (by decide)]
  constructor
  · intro h
    rcases List.mem_cons.1 h.stored with rfl | hm
    · rfl
    · rw [List.mem_singleton.1 hm] at h
      exact absurd h.competes (by decide)
  · rintro rfl
    exact ⟨by simp [diary], by decide, by decide, by decide⟩

/-- A condition without an `OR` only restricts the listing of a course. -/
theorem rawEvents_lectures :
    ∃ events, (rawEvents ⟨.null, .null, .int 5, .null⟩
        { Options.default with conditions := ["e.name = 'lecture'"] }).run (.opened (some diary))
        = (.ok events, .opened (some diary)) ∧ ∀ e, e ∈ events ↔ e = lecture := by
  have hcondition : ∀ text ∈ ["e.name = 'lecture'"], IsCondition [] text [[isLecture]] :=
    List.forall_mem_singleton.2 isLecture_isCondition
  obtain ⟨hiff, -, hconfined⟩ :=
    rawEvents_conditions (o := { Options.default with conditions := ["e.name = 'lecture'"] })
      coerce_diary rfl rfl rfl rfl run_rawEvents_diary hcondition
  have hnames : ["e.name = 'lecture'"].flatMap Placeholder.names = [] := rfl
  obtain ⟨events, hrun, hperm⟩ :=
    hiff.2 ⟨rfl, by rw [hnames]; exact List.forall_mem_nil _, hconfined (by simp)⟩
  refine ⟨events, hrun, fun e => ?_⟩
  rw [hperm.mem_iff, List.mem_filter, mem_diary_iff, and_iff_left_iff_imp]
  rintro rfl
  decide

/-- A condition with an `OR` brings in an event that belongs to no course that is asked for. -/
theorem rawEvents_lectures_or_personal :
    ∃ events, (rawEvents ⟨.null, .null, .int 5, .null⟩
        { Options.default with conditions := ["e.name = 'lecture' OR e.userid = 4"] }).run
          (.opened (some diary)) = (.ok events, .opened (some diary)) ∧
      meeting ∈ events ∧
      ¬ Filters.Admits ⟨.nobody, .nobody, .ofIds [5], .nobody⟩ meeting := by
  have hcondition : ∀ text ∈ ["e.name = 'lecture' OR e.userid = 4"],
      IsCondition [] text [[isLecture], [isPersonal]] :=
    List.forall_mem_singleton.2 isLecture_or_isPersonal_isCondition
  obtain ⟨order, -, hrun⟩ := run_rawEvents_iff
    (o := { Options.default with conditions := ["e.name = 'lecture' OR e.userid = 4"] })
    coerce_diary rfl rfl rfl rfl run_rawEvents_diary hcondition
  have hnames : ["e.name = 'lecture' OR e.userid = 4"].flatMap Placeholder.names = [] := rfl
  refine ⟨_, (hrun _).2 ⟨rfl, ?_, rfl⟩, ?_, by decide⟩
  · rw [hnames]
    exact List.forall_mem_nil _
  · refine List.mem_map.2 ⟨diary.rowOf meeting, (List.mergeSort_perm _ _).mem_iff.2 ?_, rfl⟩
    rw [joinedRows_eq (by decide)]
    have hbest : meeting ∈ diary.events.filter fun e =>
        HasBest ⟨.nobody, .nobody, .ofIds [5], .nobody⟩ false diary e :=
      List.mem_filter.2 ⟨by simp [diary], by decide⟩
    exact List.mem_filter.2 ⟨List.mem_map_of_mem hbest, by decide⟩

end Store

end EventCalendar
