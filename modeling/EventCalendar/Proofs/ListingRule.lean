import EventCalendar.Listing.Rows
import EventCalendar.Proofs.DimensionRule

/-!
# The rule of a listing

Which events are listed, said on the events alone: `Listed` asks that an event satisfies the rule of
an active dimension and is visible, that its module is not marked invisible, and that no such event
of its activity has a better priority. A lower priority is better, and none is worse than any.

* `lesser_spec`, `foldl_lesser_spec`: the least priority is one that no other outranks.
* `eq_leastPriority_iff`: **an event has the least priority** of a group that it belongs to exactly
  if no event of the group outranks it.
-/

set_option autoImplicit false

namespace EventCalendar

/-! ## Tables -/

theorem Column.holds_iff {c : Column} {x : Cell} :
    c.Holds x ↔
      (match x with
      | .null => c.isOptional
      | .int i => !c.isText && Cell.fits i
      | .text _ => c.isText
      | _ => false) = true := by
  cases x <;> cases ht : c.isText <;> simp [Holds, ht]

instance (c : Column) (x : Cell) : Decidable (c.Holds x) := decidable_of_iff' _ Column.holds_iff

instance (e : Event) : Decidable e.WellTyped :=
  decidable_of_iff (∀ c ∈ Column.all, c.Holds (e.get c))
    ⟨fun h c => h c (Column.mem_all c), fun h c _ => h c⟩

/-- The name of the module is a text and its visibility an integer. -/
structure Module.WellTyped (m : Module) : Prop where
  name : ∃ s, m.name = .text s
  visible : ∃ i, m.visible = .int i

theorem Module.wellTyped_iff {m : Module} :
    m.WellTyped ↔
      (match m.name, m.visible with
      | .text _, .int _ => true
      | _, _ => false) = true := by
  obtain ⟨id, name, visible⟩ := m
  constructor
  · rintro ⟨⟨s, rfl⟩, ⟨i, rfl⟩⟩
    rfl
  · intro h
    cases name <;> cases visible <;> first | contradiction | exact ⟨⟨_, rfl⟩, ⟨_, rfl⟩⟩

instance (m : Module) : Decidable m.WellTyped := decidable_of_iff' _ Module.wellTyped_iff

/-- Rows are of their declared types; ids of events and names of modules are unique. -/
structure Tables.Sound (t : Tables) : Prop where
  events : ∀ e ∈ t.events, e.WellTyped
  modules : ∀ m ∈ t.modules, m.WellTyped
  ids : (t.events.map (·.id)).Nodup
  names : (t.modules.map (·.name)).Nodup

instance (t : Tables) : Decidable t.Sound :=
  decidable_of_iff ((∀ e ∈ t.events, e.WellTyped) ∧ (∀ m ∈ t.modules, m.WellTyped)
      ∧ (t.events.map (·.id)).Nodup ∧ (t.modules.map (·.name)).Nodup)
    ⟨fun ⟨he, hm, hi, hn⟩ => ⟨he, hm, hi, hn⟩, fun h => ⟨h.events, h.modules, h.ids, h.names⟩⟩

namespace Event.WellTyped

variable {e : Event} (h : e.WellTyped)
include h

theorem text {c : Column} (ht : c.isText = true) (ho : c.isOptional = false) :
    ∃ s, e.get c = .text s := by
  simpa [Column.Holds, ht, ho] using h c

theorem int {c : Column} (ht : c.isText = false) (ho : c.isOptional = false) :
    ∃ i, e.get c = .int i := by
  have := h c
  simp only [Column.Holds, ht, ho, Bool.false_eq_true, false_and, if_false, false_or] at this
  exact this.imp fun _ hi => hi.1

end Event.WellTyped

/-! ## Priorities -/

namespace Cell

/-- A priority: a number or none. -/
def IsPriority (p : Cell) : Prop := p = .null ∨ ∃ i, p = .int i

/-- The one priority is strictly better: a lower number, or a number where there is none. -/
def Outranks : Cell → Cell → Prop
  | .int i, .int j => i < j
  | .int _, .null => True
  | _, _ => False

instance (p q : Cell) : Decidable (p.Outranks q) := by
  unfold Outranks
  split <;> infer_instance

theorem Outranks.irrefl (p : Cell) : ¬ p.Outranks p := by
  cases p <;> simp [Outranks]

theorem not_null_outranks (p : Cell) : ¬ Cell.null.Outranks p := by
  cases p <;> simp [Outranks]

variable {p q r : Cell}

theorem not_outranks_trans (hp : p.IsPriority) (hq : q.IsPriority) (hr : r.IsPriority)
    (hpq : ¬ p.Outranks q) (hqr : ¬ q.Outranks r) : ¬ p.Outranks r := by
  rcases hp with rfl | ⟨i, rfl⟩
  · simp [Outranks]
  · rcases hq with rfl | ⟨j, rfl⟩
    · simp [Outranks] at hpq
    · rcases hr with rfl | ⟨k, rfl⟩
      · simp [Outranks] at hqr
      · simp only [Outranks] at hpq hqr ⊢
        omega

theorem eq_of_not_outranks (hp : p.IsPriority) (hq : q.IsPriority) (hpq : ¬ p.Outranks q)
    (hqp : ¬ q.Outranks p) : p = q := by
  rcases hp with rfl | ⟨i, rfl⟩
  · rcases hq with rfl | ⟨j, rfl⟩
    · rfl
    · simp [Outranks] at hqp
  · rcases hq with rfl | ⟨j, rfl⟩
    · simp [Outranks] at hpq
    · simp only [Outranks] at hpq hqp
      rw [show i = j by omega]

end Cell

theorem Event.WellTyped.isPriority {e : Event} (h : e.WellTyped) :
    (e.get .priority).IsPriority := by
  have := h .priority
  simp only [Column.Holds, Column.isOptional, Column.isText, Bool.false_eq_true, if_false,
    true_and] at this
  exact this.imp_right fun h => h.imp fun _ hi => hi.1

namespace Listing

open Cell (IsPriority)

theorem lesser_spec {p q : Cell} (hp : p.IsPriority) (hq : q.IsPriority) :
    (lesser p q = p ∨ lesser p q = q) ∧ ¬ p.Outranks (lesser p q) ∧ ¬ q.Outranks (lesser p q) := by
  rcases hp with rfl | ⟨i, rfl⟩
  · rw [lesser_null_left]
    exact ⟨.inr rfl, Cell.not_null_outranks q, Cell.Outranks.irrefl q⟩
  · rcases hq with rfl | ⟨j, rfl⟩
    · rw [lesser_null_right]
      exact ⟨.inl rfl, Cell.Outranks.irrefl _, Cell.not_null_outranks _⟩
    · by_cases h : j < i
      · have hc : (Cell.int j).compare (.int i) = .lt := Int.compare_eq_lt.2 h
        rw [show lesser (.int i) (.int j) = .int j by simp [lesser, hc]]
        refine ⟨.inr rfl, ?_, Cell.Outranks.irrefl _⟩
        simp only [Cell.Outranks]
        omega
      · have hc : (Cell.int j).compare (.int i) ≠ .lt := fun hlt => h (Int.compare_eq_lt.1 hlt)
        rw [show lesser (.int i) (.int j) = .int i by simp [lesser, hc]]
        exact ⟨.inl rfl, Cell.Outranks.irrefl _, h⟩

theorem foldl_lesser_spec {p : Cell} {ps : List Cell} (hp : p.IsPriority)
    (hps : ∀ q ∈ ps, q.IsPriority) :
    ps.foldl lesser p ∈ p :: ps ∧ ∀ q ∈ p :: ps, ¬ q.Outranks (ps.foldl lesser p) := by
  induction ps generalizing p with
  | nil => simp [Cell.Outranks.irrefl]
  | cons q ps ih =>
    obtain ⟨hq, hps⟩ := List.forall_mem_cons.1 hps
    obtain ⟨hmem, hpl, hql⟩ := lesser_spec hp hq
    have hl : (lesser p q).IsPriority := by
      rcases hmem with h | h <;> rw [h] <;> assumption
    obtain ⟨hleast, hnone⟩ := ih hl hps
    rw [List.foldl_cons]
    generalize ps.foldl lesser (lesser p q) = least at hleast hnone
    have hleast' : least.IsPriority := by
      rcases List.mem_cons.1 hleast with rfl | h
      · exact hl
      · exact hps _ h
    obtain ⟨hlm, hrest⟩ := List.forall_mem_cons.1 hnone
    refine ⟨?_, List.forall_mem_cons.2 ⟨?_, List.forall_mem_cons.2 ⟨?_, hrest⟩⟩⟩
    · rcases List.mem_cons.1 hleast with rfl | h
      · rcases hmem with h | h <;> simp [h]
      · simp [h]
    · exact Cell.not_outranks_trans hp hl hleast' hpl hlm
    · exact Cell.not_outranks_trans hq hl hleast' hql hlm

theorem isPriority_leastPriority {es : List Event} (hes : ∀ e ∈ es, e.WellTyped) :
    (leastPriority es).IsPriority := by
  have hpriority : ∀ q ∈ es.map (·.get .priority), q.IsPriority := by
    simp only [List.mem_map]
    rintro q ⟨e, he, rfl⟩
    exact (hes e he).isPriority
  rcases List.mem_cons.1 (foldl_lesser_spec (.inl rfl) hpriority).1 with h | h
  · exact .inl h
  · exact hpriority _ h

/-- **An event has the least priority** exactly if none outranks it. -/
theorem eq_leastPriority_iff {es : List Event} (hes : ∀ e ∈ es, e.WellTyped) {e : Event}
    (he : e ∈ es) :
    e.get .priority = leastPriority es ↔
      ∀ e' ∈ es, ¬ (e'.get .priority).Outranks (e.get .priority) := by
  have hpriority : ∀ q ∈ es.map (·.get .priority), q.IsPriority := by
    simp only [List.mem_map]
    rintro q ⟨e', he', rfl⟩
    exact (hes e' he').isPriority
  have hmem : e.get .priority ∈ es.map (·.get .priority) := List.mem_map_of_mem he
  obtain ⟨hleast, hnone⟩ := foldl_lesser_spec (.inl rfl) hpriority
  rw [leastPriority]
  generalize (es.map (·.get .priority)).foldl lesser .null = least at hleast hnone
  constructor
  · intro h e' he'
    rw [h]
    exact hnone _ (List.mem_cons_of_mem _ (List.mem_map_of_mem he'))
  · intro h
    have hleast' : least.IsPriority ∧ ¬ least.Outranks (e.get .priority) := by
      rcases List.mem_cons.1 hleast with rfl | hl
      · exact ⟨.inl rfl, by simp [Cell.Outranks]⟩
      · refine ⟨hpriority _ hl, ?_⟩
        obtain ⟨e', he', rfl⟩ := List.mem_map.1 hl
        exact h e' he'
    exact Cell.eq_of_not_outranks (hpriority _ hmem) hleast'.1
      (hnone _ (List.mem_cons_of_mem _ hmem)) hleast'.2

/-! ## The rule -/

/-- The event satisfies the rule of an active dimension, and is visible unless hidden events count.
-/
structure Competes (f : Filters) (showHidden : Bool) (e : Event) : Prop where
  admitted : f.Admits e
  visible : showHidden = false → e.get .visible = .int 1

/-- The module of the event is not marked invisible. -/
def ModuleShown (t : Tables) (e : Event) : Prop :=
  ∀ m ∈ t.modules, m.name = e.get .modulename → m.visible = .int 1

/-- No event that competes outranks the event in its activity. -/
def Unrivalled (f : Filters) (showHidden : Bool) (t : Tables) (e : Event) : Prop :=
  ∀ e' ∈ t.events, Competes f showHidden e' → e'.activity = e.activity →
    ¬ (e'.get .priority).Outranks (e.get .priority)

instance (f : Filters) (showHidden : Bool) (e : Event) : Decidable (Competes f showHidden e) :=
  decidable_of_iff (f.Admits e ∧ (showHidden = false → e.get .visible = .int 1))
    ⟨fun h => ⟨h.1, h.2⟩, fun h => ⟨h.admitted, h.visible⟩⟩

instance (t : Tables) (e : Event) : Decidable (ModuleShown t e) := by
  unfold ModuleShown
  infer_instance

instance (f : Filters) (showHidden : Bool) (t : Tables) (e : Event) :
    Decidable (Unrivalled f showHidden t e) := by
  unfold Unrivalled
  infer_instance

/-- **The rule of a listing.** -/
structure Listed (f : Filters) (showHidden : Bool) (t : Tables) (e : Event) : Prop where
  stored : e ∈ t.events
  competes : Competes f showHidden e
  moduleShown : ModuleShown t e
  unrivalled : Unrivalled f showHidden t e

end Listing

end EventCalendar
