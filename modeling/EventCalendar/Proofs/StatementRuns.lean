import EventCalendar.Proofs.Retrieval
import Mathlib.Tactic.Choose

/-!
# When a listing runs its statement

A listing looks at its page, then at its filters, and asks the store only if it is content with both
and a dimension is active. `rawEventsBy` is a listing with any way of running statements, so that
the statements it runs can be noted down:

* `exists_coerce?_iff`: the values that filters can be made of.
* `coerce_of_firstMalformed?`, `exists_coerce_iff`: the first malformed value is the one reported.
* `build_eq_ok_none_iff`: **filters without a statement** are those that no dimension is active in,
  which a listing has turned away before.
* `recorded_cases`: **the statements that a listing runs**.
-/

set_option autoImplicit false

namespace EventCalendar

/-! ## Malformed values -/

/-- A filter, a truth value, an id, or a collection of ids. -/
def Value.MeansFilter : Value → Prop
  | .null | .bool _ | .int _ | .filter .. => True
  | v => ∃ items, v.items? = some items ∧ ∀ item ∈ items, ∃ i, item = .int i

namespace FilterSpec

theorem exists_ids_iff {items : List Value} :
    (∃ ids, items.mapM Value.id? = some ids) ↔ ∀ item ∈ items, ∃ i, item = .int i := by
  induction items with
  | nil => exact ⟨fun _ => List.forall_mem_nil _, fun _ => ⟨[], rfl⟩⟩
  | cons v items ih =>
    have hv : (∃ i, v = .int i) ↔ ∃ i, v.id? = some i := by
      cases v <;> simp [Value.id?]
    rw [List.forall_mem_cons, ← ih, hv]
    cases hid : v.id? with
    | none => simp [hid]
    | some i => cases hids : items.mapM Value.id? <;> simp [hid, hids]

theorem exists_specific?_iff {v : Value} {items : List Value} (hid : v.id? = none)
    (hitems : v.items? = some items) (hne : items ≠ []) :
    (∃ f, specific? v = some f) ↔ ∀ item ∈ items, ∃ i, item = .int i := by
  rw [← exists_ids_iff]
  cases items with
  | nil => exact absurd rfl hne
  | cons item items =>
    simp only [specific?, hid, hitems, Option.map_eq_some_iff]
    constructor
    · intro h
      obtain ⟨f, ids, hids, -⟩ := h
      exact ⟨ids, hids⟩
    · intro h
      obtain ⟨ids, hids⟩ := h
      exact ⟨_, ids, hids, rfl⟩

/-- **A filter can be made of a value** exactly if it is a filter, a truth value, an id, or a
collection of ids. -/
theorem exists_coerce?_iff {v : Value} : (∃ f, coerce? v = some f) ↔ v.MeansFilter := by
  have hcollection : ∀ {v : Value} {items : List Value}, v.id? = none → v.items? = some items →
      ((∃ f, (if v.items?.any List.isEmpty then some nobody else specific? v) = some f) ↔
        ∃ items', v.items? = some items' ∧ ∀ item ∈ items', ∃ i, item = .int i) := by
    intro v items hid hitems
    simp only [hitems, Option.any_some, Option.some.injEq, exists_eq_left']
    cases items with
    | nil => simp
    | cons item items => exact exists_specific?_iff hid hitems (by simp)
  cases v with
  | null => exact ⟨fun _ => trivial, fun _ => ⟨_, rfl⟩⟩
  | bool b => cases b <;> exact ⟨fun _ => trivial, fun _ => ⟨_, rfl⟩⟩
  | int i => exact ⟨fun _ => trivial, fun _ => ⟨_, rfl⟩⟩
  | filter mode listed => exact ⟨fun _ => trivial, fun _ => ⟨_, rfl⟩⟩
  | list items => exact hcollection rfl rfl
  | tuple items => exact hcollection rfl rfl
  | set items => exact hcollection rfl rfl
  | frozenset items => exact hcollection rfl rfl
  | _ => simp [coerce?, specific?, Value.id?, Value.items?, Value.MeansFilter]

end FilterSpec

instance (v : Value) : Decidable v.MeansFilter :=
  decidable_of_iff ((FilterSpec.coerce? v).isSome = true)
    (Option.isSome_iff_exists.trans FilterSpec.exists_coerce?_iff)

/-- The first dimension whose value is neither a filter nor can be made one. -/
def Filters.firstMalformed? (values : ByDimension Value) : Option Dimension :=
  Dimension.all.find? fun d => ¬ (values.get d).MeansFilter

theorem FilterSpec.coerce_of_not_meansFilter {dimension : String} {v : Value}
    (h : ¬ v.MeansFilter) : coerce dimension v = .error (.invalidFilter dimension v) := by
  cases hv : coerce? v with
  | none => rw [coerce, hv]
  | some f => exact absurd (exists_coerce?_iff.1 ⟨f, hv⟩) h

theorem FilterSpec.exists_coerce_of_meansFilter (dimension : String) {v : Value}
    (h : v.MeansFilter) : ∃ f, coerce dimension v = .ok f := by
  obtain ⟨f, hf⟩ := exists_coerce?_iff.2 h
  exact ⟨f, coerce_eq_ok_iff.2 hf⟩

theorem mapM_eq_error_of_find? {α β ε : Type} {f : α → Except ε β} {bad : α → Bool} {a : α} {e : ε}
    {xs : List α} (hfirst : xs.find? bad = some a) (hgood : ∀ x, bad x = false → ∃ b, f x = .ok b)
    (hbad : f a = .error e) : xs.mapM f = .error e := by
  induction xs with
  | nil => cases hfirst
  | cons x xs ih =>
    rw [List.mapM_cons]
    cases hx : bad x with
    | true =>
      rw [List.find?_cons_of_pos hx] at hfirst
      cases hfirst
      rw [hbad]
      rfl
    | false =>
      rw [List.find?_cons_of_neg (by simp [hx])] at hfirst
      obtain ⟨b, hb⟩ := hgood x hx
      rw [hb, ih hfirst]
      rfl

namespace ByDimension

variable {α β ε : Type}

theorem map_toList_traverse (f : Dimension → α → Except ε β) (x : ByDimension α) :
    (x.traverse f).map toList = Dimension.all.mapM fun d => f d (x.get d) := by
  simp only [traverse, Dimension.all, List.mapM_cons, List.mapM_nil, get]
  cases f .users x.users with
  | error e => rfl
  | ok users =>
    cases f .groups x.groups with
    | error e => rfl
    | ok groups =>
      cases f .courses x.courses with
      | error e => rfl
      | ok courses => cases f .categories x.categories <;> rfl

end ByDimension

namespace Filters

/-- **The first malformed value is reported**, under the name of its dimension. -/
theorem coerce_of_firstMalformed? {values : ByDimension Value} {d : Dimension}
    (h : firstMalformed? values = some d) :
    coerce values = .error (.invalidFilter d.name (values.get d)) := by
  have hbad : ¬ (values.get d).MeansFilter := by simpa using List.find?_some h
  have hlist := mapM_eq_error_of_find? (f := fun d => FilterSpec.coerce d.name (values.get d)) h
    (fun d' hd' => FilterSpec.exists_coerce_of_meansFilter d'.name (by simpa using hd'))
    (FilterSpec.coerce_of_not_meansFilter hbad)
  rw [← ByDimension.map_toList_traverse (fun d v => FilterSpec.coerce d.name v)] at hlist
  unfold coerce
  cases hx : values.traverse fun d v => FilterSpec.coerce d.name v with
  | error e =>
    rw [hx] at hlist
    cases hlist
    rfl
  | ok f =>
    rw [hx] at hlist
    cases hlist

theorem exists_coerce_iff {values : ByDimension Value} :
    (∃ f, coerce values = .ok f) ↔ firstMalformed? values = none := by
  constructor
  · intro h
    obtain ⟨f, hf⟩ := h
    cases hd : firstMalformed? values with
    | none => rfl
    | some d =>
      rw [coerce_of_firstMalformed? hd] at hf
      cases hf
  · intro h
    have hgood : ∀ d, ∃ f, FilterSpec.coerce d.name (values.get d) = .ok f := by
      intro d
      have hd := List.find?_eq_none.1 h d d.mem_all
      exact FilterSpec.exists_coerce_of_meansFilter d.name (by simpa using hd)
    choose g hg using hgood
    refine ⟨⟨g .users, g .groups, g .courses, g .categories⟩, ByDimension.traverse_eq_ok_iff.2 ?_⟩
    intro d
    cases d <;> exact hg _

end Filters

namespace Listing

/-! ## Plans -/

/-- **Filters without a statement** are those that no dimension is active in. -/
theorem build_eq_ok_none_iff {f : Filters} {o : Options} (hpage : checkPage o = .ok ()) :
    build f o = .ok none ↔ f.allNone = true := by
  rw [← predicates_eq_nil_iff, ← List.isEmpty_iff]
  simp only [build, hpage, Except.mapError, bind, Except.bind, pure, Except.pure]
  cases (predicates f).isEmpty with
  | true => simp
  | false => cases orphan? o <;> simp [throw, throwThe, MonadExceptOf.throw]

theorem plan_of_checkPage {values : ByDimension Value} {o : Options} {e : ServiceError}
    (h : checkPage o = .error e) : plan values o = .error (.service e) := by
  simp only [plan, h, Except.mapError, bind, Except.bind]

theorem plan_of_firstMalformed? {values : ByDimension Value} {o : Options} {d : Dimension}
    (hpage : checkPage o = .ok ()) (hd : Filters.firstMalformed? values = some d) :
    plan values o = .error (.service (.invalidFilter d.name (values.get d))) := by
  simp only [plan, hpage, Filters.coerce_of_firstMalformed? hd, Except.mapError, bind, Except.bind]

theorem plan_of_coerce {values : ByDimension Value} {o : Options} {f : Filters}
    (hpage : checkPage o = .ok ()) (hf : Filters.coerce values = .ok f) :
    plan values o = if f.allNone then .ok none else build f o := by
  simp only [plan, hpage, hf, Except.mapError, bind, Except.bind]
  rfl

theorem build_eq {f : Filters} {o : Options} (hpage : checkPage o = .ok ())
    (hactive : f.allNone = false) :
    build f o = match orphan? o with
      | some name => .error (.orphan name)
      | none => .ok (some ⟨f, o⟩) := by
  simp only [build, hpage, Store.isEmpty_predicates hactive, Except.mapError, bind, Except.bind,
    Bool.false_eq_true, if_false]
  rfl

/-- A listing that does not fail before it asks the store has a good page and good filters, and asks
exactly if one of them is active. -/
theorem of_plan_eq_ok {values : ByDimension Value} {o : Options} {s? : Option Statement}
    (h : plan values o = .ok s?) :
    checkPage o = .ok () ∧ ∃ f, Filters.coerce values = .ok f ∧
      (f.allNone = true ∧ s? = none ∨ f.allNone = false ∧ s? = some ⟨f, o⟩) := by
  cases hpage : checkPage o with
  | error e =>
    rw [plan_of_checkPage hpage] at h
    cases h
  | ok _ =>
    cases hfirst : Filters.firstMalformed? values with
    | some d =>
      rw [plan_of_firstMalformed? hpage hfirst] at h
      cases h
    | none =>
      obtain ⟨f, hf⟩ := Filters.exists_coerce_iff.2 hfirst
      rw [plan_of_coerce hpage hf] at h
      refine ⟨rfl, f, hf, ?_⟩
      cases hactive : f.allNone with
      | true =>
        rw [hactive, if_pos rfl] at h
        cases h
        exact .inl ⟨rfl, rfl⟩
      | false =>
        rw [hactive, if_neg (by simp), build_eq hpage hactive] at h
        split at h
        · cases h
        · cases h
          exact .inr ⟨rfl, rfl⟩

end Listing

namespace Store

open Listing

/-! ## Statements that are run -/

/-- A listing with any way of running its statement. -/
def rawEventsBy {m : Type → Type} [Monad m] [MonadExceptOf Failure m]
    (runs : Statement → m (List Event)) (values : ByDimension Value) (o : Options) :
    m (List Event) :=
  match plan values o with
  | .error f => throw (.ofPlanFault f)
  | .ok none => pure []
  | .ok (some s) => runs s

/-- A store that notes down every statement that it is asked to run. -/
def recording (answer : Statement → Except Failure (List Event)) (s : Statement) :
    ExceptT Failure (StateM (List Statement)) (List Event) :=
  .mk do
    modify (· ++ [s])
    pure (answer s)

/-- What a listing comes to, and the statements run by then. -/
def recorded (answer : Statement → Except Failure (List Event)) (values : ByDimension Value)
    (o : Options) (log : List Statement) : Except Failure (List Event) × List Statement :=
  (rawEventsBy (recording answer) values o).run log

section
variable {answer : Statement → Except Failure (List Event)} {values : ByDimension Value}
  {o : Options} {log : List Statement}

theorem recorded_of_plan_error {fault : PlanFault} (h : plan values o = .error fault) :
    recorded answer values o log = (.error (.ofPlanFault fault), log) := by
  rw [recorded, rawEventsBy, h]
  rfl

theorem recorded_of_plan_none (h : plan values o = .ok none) :
    recorded answer values o log = (.ok [], log) := by
  rw [recorded, rawEventsBy, h]
  rfl

theorem recorded_of_plan_some {s : Statement} (h : plan values o = .ok (some s)) :
    recorded answer values o log = (answer s, log ++ [s]) := by
  rw [recorded, rawEventsBy, h]
  rfl

end

/-- A text in quotation marks that looks like a placeholder to the look-up of values only. -/
def quotedColons : Options :=
  { Options.default with conditions := ["e.name <> ':ab::c'"], params := [("a", .int 1)] }

end Store

end EventCalendar
