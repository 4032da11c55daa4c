import EventCalendar.Proofs.Condition

/-!
# Dimension rules and scopes

`Dimension.Admits d f e` is the rule of a dimension, said on the keys of an event: the filter wants
its key, and the keys that win over it are not set. `Filters.Admits` asks for the rule of one
dimension at least.

* `Predicate.holds_iff`, `holds_dimensionExpr`: the conditions of a listing say these rules.
* `Event.scope_eq`: the scope of an event, said on its keys.
* `Dimension.admits_iff_scope`: **the rule of a dimension admits the events of its scope** with a
  wanted key, so no event satisfies two of them.
-/

set_option autoImplicit false

namespace EventCalendar

/-! ## Rules on keys -/

/-- The integer in a cell; zero where there is none. -/
def Cell.integer : Cell → Int
  | .int i => i
  | _ => 0

namespace Event

def key (e : Event) (d : Dimension) : Int := (e.get d.key).integer

/-- The four keys are integers. -/
def Keyed (e : Event) : Prop := ∀ d : Dimension, e.get d.key = .int (e.key d)

theorem WellTyped.keyed {e : Event} (h : e.WellTyped) : e.Keyed := by
  intro d
  have hd : ∃ i, e.get d.key = .int i ∧ Cell.fits i = true := by
    have hc := h d.key
    cases d <;> simpa [Column.Holds, Dimension.key, Column.isOptional, Column.isText] using hc
  obtain ⟨i, hi, -⟩ := hd
  rw [key, hi]
  rfl

end Event

/-- The filter wants a key: any that is set, or one of its ids. -/
def FilterSpec.Wants (f : FilterSpec) (k : Int) : Prop :=
  match f.mode with
  | .none => False
  | .all => k ≠ 0
  | .specific => k ∈ f.ids.toList

instance (f : FilterSpec) (k : Int) : Decidable (f.Wants k) := by
  unfold FilterSpec.Wants
  split <;> infer_instance

theorem FilterSpec.not_wants_of_isNone {f : FilterSpec} (h : f.isNone = true) (k : Int) :
    ¬ f.Wants k := by
  have hm : f.mode = .none := by simpa [isNone] using h
  simp [Wants, hm]

theorem Filters.isNone_of_allNone {f : Filters} (h : f.allNone = true) (d : Dimension) :
    (f.get d).isNone = true := by
  have hall : ∀ x ∈ f.toList, FilterSpec.isNone x = true := List.all_eq_true.1 h
  refine hall _ ?_
  cases d <;> simp [ByDimension.toList, ByDimension.get]

/-- The rule of a dimension. -/
def Dimension.Admits (f : FilterSpec) (e : Event) : Dimension → Prop
  | .users =>
    f.Wants (e.key .users) ∧ e.key .courses = 0 ∧ e.key .groups = 0 ∧ e.key .categories = 0
  | .groups => f.Wants (e.key .groups)
  | .courses => e.key .groups = 0 ∧ f.Wants (e.key .courses)
  | .categories => e.key .groups = 0 ∧ e.key .courses = 0 ∧ f.Wants (e.key .categories)

instance (f : FilterSpec) (e : Event) (d : Dimension) : Decidable (d.Admits f e) := by
  cases d <;> unfold Dimension.Admits <;> infer_instance

/-- The rule of one of the dimensions. -/
def Filters.Admits (f : Filters) (e : Event) : Prop := ∃ d, Dimension.Admits (f.get d) e d

instance (f : Filters) (e : Event) : Decidable (f.Admits e) :=
  decidable_of_iff (∃ d ∈ Dimension.all, Dimension.Admits (f.get d) e d)
    ⟨fun ⟨d, _, h⟩ => ⟨d, h⟩, fun ⟨d, h⟩ => ⟨d, d.mem_all, h⟩⟩

theorem Dimension.Admits.wants {f : FilterSpec} {e : Event} {d : Dimension} (h : d.Admits f e) :
    f.Wants (e.key d) := by
  cases d with
  | users => exact h.1
  | groups => exact h
  | courses => exact h.2
  | categories => exact h.2.2

theorem Filters.Admits.allNone_eq_false {f : Filters} {e : Event} (h : f.Admits e) :
    f.allNone = false := by
  obtain ⟨d, hd⟩ := h
  refine Bool.eq_false_iff.2 fun hnone => ?_
  exact FilterSpec.not_wants_of_isNone (Filters.isNone_of_allNone hnone d) _ hd.wants

namespace Listing

/-! ## Predicates -/

theorem mem_predicates_iff {f : Filters} {p : Predicate} :
    p ∈ predicates f ↔ ∃ d, predicate? d (f.get d) = some p := by
  rw [predicates, List.mem_filterMap]
  exact exists_congr fun d => and_iff_right d.mem_all

def Predicate.expr (p : Predicate) : Expr := .conjunction (p.map KeyTest.expr)

/-- The predicate of a dimension holds on a row. -/
def SatisfiesDimension (f : Filters) (row : Row) (d : Dimension) : Prop :=
  ∃ p, predicate? d (f.get d) = some p ∧ p.expr.holds row = true

section
variable {row : Row} (he : row.event.Keyed)
include he

theorem KeyTest.holds_isZero (d : Dimension) :
    (KeyTest.isZero d.key).expr.holds row = true ↔ row.event.key d = 0 := by
  rw [expr, Expr.holds_eq_int (by cases d <;> rfl) (he d), decide_eq_true_iff]

theorem KeyTest.holds_ofFilter (d : Dimension) {f : FilterSpec} (hf : f.isNone = false) :
    (KeyTest.ofFilter d.key f).expr.holds row = true ↔ f.Wants (row.event.key d) := by
  have hc : d.key.isText = false := by cases d <;> rfl
  unfold ofFilter FilterSpec.Wants
  split
  · rename_i hm
    rw [expr, Expr.holds_ne_int hc (he d), decide_eq_true_iff]
    simp [hm]
  · rename_i hm
    have hs : f.mode = .specific := by
      cases h : f.mode <;> simp_all [FilterSpec.isNone]
    rw [expr, Expr.holds_among_ints hc (he d), decide_eq_true_iff]
    simp [hs]

theorem Predicate.holds_iff {d : Dimension} {f : FilterSpec} {p : Predicate}
    (hp : predicate? d f = some p) : p.expr.holds row = true ↔ d.Admits f row.event := by
  unfold predicate? at hp
  split at hp
  · cases hp
  · rename_i hf
    have hf : f.isNone = false := by simpa using hf
    have hu := KeyTest.holds_ofFilter he .users hf
    have hg := KeyTest.holds_ofFilter he .groups hf
    have hc := KeyTest.holds_ofFilter he .courses hf
    have hk := KeyTest.holds_ofFilter he .categories hf
    have zg := KeyTest.holds_isZero he .groups
    have zc := KeyTest.holds_isZero he .courses
    have zk := KeyTest.holds_isZero he .categories
    simp only [Dimension.key] at hu hg hc hk zg zc zk
    cases d <;> cases hp <;>
      simp [Predicate.expr, Expr.holds_conjunction, Dimension.Admits, hu, hg, hc, hk, zg, zc, zk]

theorem satisfiesDimension_iff {f : Filters} (d : Dimension) :
    SatisfiesDimension f row d ↔ d.Admits (f.get d) row.event := by
  constructor
  · rintro ⟨p, hp, h⟩
    exact (Predicate.holds_iff he hp).1 h
  · intro h
    cases hp : predicate? d (f.get d) with
    | none =>
      exact absurd h.wants (FilterSpec.not_wants_of_isNone (predicate?_eq_none_iff.1 hp) _)
    | some p => exact ⟨p, hp, (Predicate.holds_iff he hp).2 h⟩

theorem holds_dimensionExpr (f : Filters) :
    (dimensionExpr f).holds row = true ↔ f.Admits row.event := by
  rw [dimensionExpr, Expr.holds_disjunction, List.any_map, List.any_eq_true]
  constructor
  · rintro ⟨p, hp, h⟩
    obtain ⟨d, hd⟩ := mem_predicates_iff.1 hp
    exact ⟨d, (Predicate.holds_iff he hd).1 h⟩
  · rintro ⟨d, h⟩
    obtain ⟨p, hp, h⟩ := (satisfiesDimension_iff he d).2 h
    exact ⟨p, mem_predicates_iff.2 ⟨d, hp⟩, h⟩

end

end Listing

/-! ## Scopes -/

namespace Event

theorem isTruthy_key {e : Event} (he : e.Keyed) (d : Dimension) :
    (e.draft.value d.key).isTruthy = decide (e.key d ≠ 0) := by
  simp only [draft, he d, Cell.value, Value.isTruthy]
  by_cases h : e.key d = 0 <;> simp [h]

theorem scope_eq {e : Event} (he : e.Keyed) :
    e.scope = if e.key .groups ≠ 0 then .group
      else if e.key .courses ≠ 0 then .course
      else if e.key .categories ≠ 0 then .category
      else if e.key .users ≠ 0 then .user
      else .site := by
  have hg := isTruthy_key he .groups
  have hc := isTruthy_key he .courses
  have hk := isTruthy_key he .categories
  have hu := isTruthy_key he .users
  simp only [Dimension.key] at hg hc hk hu
  simp only [scope, Draft.scope, Scope.ofKeys, hg, hc, hk, hu, decide_eq_true_eq]

end Event

/-- The ids of the filter leave out zero, the key of an event outside the dimension. -/
def FilterSpec.Proper (f : FilterSpec) : Prop := f.mode = .specific → 0 ∉ f.ids.toList

instance (f : FilterSpec) : Decidable f.Proper :=
  inferInstanceAs (Decidable (f.mode = .specific → 0 ∉ f.ids.toList))

theorem FilterSpec.Proper.wants_iff {f : FilterSpec} (hf : f.Proper) {k : Int} :
    f.Wants k ↔ f.isNone = false ∧ k ≠ 0 ∧ (f.mode = .specific → k ∈ f.ids.toList) := by
  unfold Wants
  cases hm : f.mode with
  | none => simp [isNone, hm]
  | all => simp [isNone, hm]
  | specific =>
    have h0 := hf hm
    simp only [isNone, hm, forall_const]
    exact ⟨fun h => ⟨rfl, fun hk => h0 (hk ▸ h), h⟩, fun h => h.2.2⟩

theorem Dimension.admits_iff_scope {e : Event} (he : e.Keyed) {f : FilterSpec} (hf : f.Proper)
    (d : Dimension) :
    d.Admits f e ↔
      f.isNone = false ∧ e.scope = d.scope ∧ (f.mode = .specific → e.key d ∈ f.ids.toList) := by
  rw [Event.scope_eq he]
  cases d <;> simp only [Admits, Dimension.scope, hf.wants_iff] <;>
    (repeat' split) <;> simp_all

/-- An event with given cells; the other columns are empty or zero. -/
def Event.given (id : Int) (cells : List (Column × Cell)) : Event where
  id := id
  cell c := (cells.lookup c).getD
    (if c.isOptional then .null else if c.isText then .text "" else .int 0)

namespace Listing

/-- **Predicates agree with scopes**: the predicate of a dimension holds of the events of its scope
with a wanted key. So at most one of them holds of an event, none of an event of the site, and all
four together leave out just the events of the site. -/
theorem predicates_agree_with_scope {f : Filters} (hf : ∀ d, (f.get d).Proper) {row : Row}
    (he : row.event.Keyed) :
    (∀ d, SatisfiesDimension f row d ↔
      (f.get d).isNone = false ∧ row.event.scope = d.scope ∧
        ((f.get d).mode = .specific → row.event.key d ∈ (f.get d).ids.toList)) ∧
    (∀ d d', SatisfiesDimension f row d → SatisfiesDimension f row d' → d = d') ∧
    (row.event.scope = .site → ∀ d, ¬ SatisfiesDimension f row d) ∧
    ((∀ d, (f.get d).mode = .all) →
      ((dimensionExpr f).holds row = true ↔ row.event.scope ≠ .site)) := by
  have key : ∀ d, SatisfiesDimension f row d ↔
      (f.get d).isNone = false ∧ row.event.scope = d.scope ∧
        ((f.get d).mode = .specific → row.event.key d ∈ (f.get d).ids.toList) := fun d =>
    (satisfiesDimension_iff he d).trans (Dimension.admits_iff_scope he (hf d) d)
  refine ⟨key, fun d d' h h' => ?_, fun hs d h => ?_, fun hall => ?_⟩
  · have hdd : d.scope = d'.scope := ((key d).1 h).2.1.symm.trans ((key d').1 h').2.1
    cases d <;> cases d' <;> first | rfl | cases hdd
  · have hd := ((key d).1 h).2.1
    rw [hs] at hd
    cases d <;> cases hd
  · rw [holds_dimensionExpr he]
    have hadm : ∀ d, Dimension.Admits (f.get d) row.event d ↔ row.event.scope = d.scope := by
      intro d
      rw [Dimension.admits_iff_scope he (hf d)]
      simp [FilterSpec.isNone, hall d]
    simp only [Filters.Admits, hadm]
    constructor
    · rintro ⟨d, hd⟩
      rw [hd]
      cases d <;> simp [Dimension.scope]
    · intro h
      cases hs : row.event.scope with
      | site => exact absurd hs h
      | user => exact ⟨.users, rfl⟩
      | group => exact ⟨.groups, rfl⟩
      | course => exact ⟨.courses, rfl⟩
      | category => exact ⟨.categories, rfl⟩

/-- An event with the keys of a group, a course and a user is one of the group. -/
theorem predicates_of_group_event :
    let f : Filters := ⟨.everyone, .ofIds [7], .ofIds [5], .nobody⟩
    let row := Row.ofEvent (.given 1 [(.groupid, .int 7), (.courseid, .int 5), (.userid, .int 3)])
    SatisfiesDimension f row .groups ∧ ¬ SatisfiesDimension f row .courses
      ∧ ¬ SatisfiesDimension f row .users := by
  intro f row
  have hf : ∀ d, (f.get d).Proper := by
    intro d
    cases d <;> decide
  have he : row.event.Keyed := by
    intro d
    cases d <;> rfl
  obtain ⟨hiff, honly, -⟩ := predicates_agree_with_scope hf he
  have hgroup : SatisfiesDimension f row .groups := (hiff .groups).2 ⟨rfl, rfl, fun _ => by decide⟩
  refine ⟨hgroup, fun h => ?_, fun h => ?_⟩
  · cases honly _ _ hgroup h
  · cases honly _ _ hgroup h

end Listing

end EventCalendar
