import EventCalendar.Proofs.AllOrNothing
import EventCalendar.Proofs.ListingFailures

/-!
# Records of stored events

A new event has defaults for the columns that are not given, and a record has defaults of its own
for the fields that are missing. They agree (`Column.read_default`), so what is stored reads as the
record of what was given:

* `TypedFields.exists_completed`: what a column of a new event holds, and how it reads.
* `Store.exists_stored`: typed fields are stored, under an id of their own.
* `Store.Later.sees`: events outlive sessions as long as no uncommitted changes are lost.
* `Store.createEvent_record`: **a stored event reads as the record of its fields** wherever it is
  listed.
-/

set_option autoImplicit false

namespace EventCalendar

theorem Column.label_inj {c c' : Column} (h : c.label = c'.label) : c = c' := by
  have hsame := ofLabel?_label c
  rw [h, ofLabel?_label c'] at hsame
  exact (Option.some.inj hsame).symm

/-! ## Typed fields -/

/-- Fields of events with different names, each with a value of the declared type of its column. -/
structure TypedFields (fields : List (String × Value)) : Prop where
  names : (fields.map (·.1)).Nodup
  values : ∀ field ∈ fields, ∃ (c : Column) (x : Cell),
    field.1 = c.label ∧ c.Holds x ∧ field.2 = x.value

namespace TypedFields

variable {fields : List (String × Value)}

theorem exists_foldlM (h : TypedFields fields) (d : Draft) : ∃ d',
    fields.foldlM (fun d field => d.set field.1 field.2) d = .ok d' ∧
      ∀ c : Column, d'.value c = (fields.lookup c.label).getD (d.value c) := by
  induction fields generalizing d with
  | nil => exact ⟨d, rfl, fun _ => rfl⟩
  | cons field fields ih =>
    obtain ⟨⟨c, x, hname, -, -⟩, hvalues⟩ := List.forall_mem_cons.1 h.values
    obtain ⟨hnew, hnames⟩ := List.nodup_cons.1 h.names
    have hset : d.set field.1 field.2
        = .ok ⟨fun c' => if c' = c then field.2 else d.value c'⟩ := by
      rw [Draft.set, hname, Column.ofLabel?_label]
    obtain ⟨d', hd', hvalue⟩ :=
      ih ⟨hnames, hvalues⟩ ⟨fun c' => if c' = c then field.2 else d.value c'⟩
    refine ⟨d', ?_, fun c' => ?_⟩
    · rw [List.foldlM_cons, hset]
      exact hd'
    · rw [hvalue c', List.lookup_cons]
      by_cases hc : c' = c
      · have hnone : fields.lookup c'.label = none := by
          rw [List.lookup_eq_none_iff]
          intro other hother
          have hne : c'.label ≠ other.1 := by
            rintro heq
            rw [hc, ← hname] at heq
            exact hnew (List.mem_map.2 ⟨other, hother, heq.symm⟩)
          simpa using hne
        rw [hnone, hname, hc]
        simp
      · have hne : (c'.label == field.1) = false := by
          rw [hname]
          exact beq_eq_false_iff_ne.2 fun heq => hc (Column.label_inj heq)
        rw [hne]
        simp [hc]

/-- **Typed fields describe an event.** -/
theorem exists_ofFields (h : TypedFields fields) : ∃ d, Draft.ofFields fields = .ok d ∧
    ∀ c : Column, d.value c = (fields.lookup c.label).getD .null :=
  h.exists_foldlM .blank

theorem exists_cell (h : TypedFields fields) {c : Column} {v : Value}
    (hv : fields.lookup c.label = some v) : ∃ x, c.Holds x ∧ v = x.value := by
  obtain ⟨l₁, l₂, hl, -⟩ := List.lookup_eq_some_iff.1 hv
  obtain ⟨c', x, hname, hx, hvalue⟩ := h.values (c.label, v) (by simp [hl])
  exact ⟨x, Column.label_inj hname ▸ hx, hvalue⟩

theorem lookup_eq_none (h : TypedFields fields) {name : String}
    (hname : ∀ c : Column, c.label ≠ name) :
    fields.lookup name = none := by
  rw [List.lookup_eq_none_iff]
  intro field hfield
  obtain ⟨c, -, hc, -⟩ := h.values field hfield
  have hne : name ≠ field.1 := fun heq => hname c (by rw [heq, hc])
  simpa using hne

end TypedFields

/-! ## Defaults -/

/-- **The defaults of the columns and of the fields of a record agree.** -/
theorem Column.read_default {c : Column} (hc : c ≠ .id) :
    ∃ x, c.Holds x ∧ c.default = x.value ∧ Datum.read c x.value = Record.missing c := by
  refine ⟨(Cell.ofValue c.default).toOption.getD .null, ?_⟩
  cases c <;> first
    | exact absurd rfl hc
    | exact ⟨by decide, rfl, rfl⟩

namespace TypedFields

variable {fields : List (String × Value)} (h : TypedFields fields)
include h

/-- **What a column of a new event holds** but for its id: what is given or the default, and either
reads as the field of a record does. -/
theorem exists_completed {d : Draft}
    (hd : ∀ c : Column, d.value c = (fields.lookup c.label).getD .null) {c : Column} (hc : c ≠ .id) :
    ∃ x, c.Holds x ∧ d.completed.value c = x.value ∧
      Datum.read c x.value = (fields.lookup c.label).elim (Record.missing c) (Datum.read c) := by
  have hcompleted : d.completed.value c
      = if (d.value c).isNull then c.default else d.value c := rfl
  cases hv : fields.lookup c.label with
  | none =>
    rw [hcompleted, hd c, hv]
    exact Column.read_default hc
  | some v =>
    obtain ⟨x, hx, rfl⟩ := h.exists_cell hv
    refine ⟨x, hx, ?_, rfl⟩
    rw [hcompleted, hd c, hv]
    rcases hx with ⟨hoptional, rfl⟩ | hx
    · -- A null that may be stored is its own default.
      cases c <;> first
        | rfl
        | cases hoptional
    · have hnull : x.value.isNull = false := by
        split at hx
        · obtain ⟨s, rfl⟩ := hx
          rfl
        · obtain ⟨i, rfl, -⟩ := hx
          rfl
      rw [Option.getD_some, hnull]
      rfl

end TypedFields

theorem Store.fits_nextId {ids : List Int} (h : ∀ i ∈ ids, Cell.fits i = true ∧ i ≠ Cell.maxInt) :
    Cell.fits (nextId ids) = true := by
  have hmax : ∀ {ids : List Int} {m : Int}, (∀ i ∈ m :: ids, Cell.fits i = true ∧ i ≠ Cell.maxInt) →
      Cell.fits (ids.foldl max m + 1) = true := by
    intro ids
    induction ids with
    | nil =>
      intro m h
      have hm := h m List.mem_cons_self
      simp only [Cell.fits, Bool.and_eq_true, decide_eq_true_eq] at hm ⊢
      rw [List.foldl_nil]
      omega
    | cons i ids ih =>
      intro m h
      refine ih (List.forall_mem_cons.2 ⟨?_, fun j hj => h j (by simp [hj])⟩)
      rcases Int.le_total m i with hle | hle
      · rw [Int.max_eq_right hle]
        exact h i (by simp)
      · rw [Int.max_eq_left hle]
        exact h m (by simp)
  cases ids with
  | nil => decide
  | cons m ids => exact hmax h

/-! ## Records -/

theorem Record.assemble_scope {field : Column → Except FieldError Datum} {scope : Scope} {r : Record}
    (h : assemble field (.ok scope) = .ok r) :
    r.scope = scope ∧ ∀ scope', assemble field (.ok scope') = .ok ⟨r.datum, scope'⟩ := by
  unfold assemble at h ⊢
  cases hfaults : Column.all.flatMap fun c => faultOf c.label (field c) with
  | nil =>
    rw [hfaults] at h
    cases h
    exact ⟨rfl, fun _ => rfl⟩
  | cons fault faults =>
    rw [hfaults] at h
    cases h

/-! ## Storing -/

theorem Column.Holds.exists_ofValue {c : Column} {x : Cell} (h : c.Holds x) :
    ∃ cell, Cell.ofValue x.value = .ok cell := by
  rcases h with ⟨-, rfl⟩ | h
  · exact ⟨_, rfl⟩
  · split at h
    · obtain ⟨s, rfl⟩ := h
      exact ⟨_, rfl⟩
    · obtain ⟨i, rfl, hi⟩ := h
      exact ⟨.int i, if_pos hi⟩

namespace Store

open Listing (Options)

theorem exists_bindAll {position : Nat} {values : List Value}
    (h : ∀ v ∈ values, ∃ cell, Cell.ofValue v = .ok cell) :
    ∃ cells, bindAll position values = .ok cells := by
  induction values generalizing position with
  | nil => exact ⟨[], rfl⟩
  | cons v values ih =>
    obtain ⟨⟨cell, hcell⟩, hrest⟩ := List.forall_mem_cons.1 h
    obtain ⟨cells, hcells⟩ : ∃ cells, bindAll (position + 1) values = .ok cells := ih hrest
    refine ⟨cell :: cells, ?_⟩
    rw [bindAll, hcell, hcells]
    rfl

theorem exists_column_of_mem_insertedValues {d : Draft} {v : Value} (hv : v ∈ insertedValues d) :
    ∃ c : Column, v = d.value c := by
  unfold insertedValues at hv
  have hothers : v ∈ (Column.all.filter (· ≠ .id)).map d.value → ∃ c : Column, v = d.value c := by
    intro h
    obtain ⟨c, -, rfl⟩ := List.mem_map.1 h
    exact ⟨c, rfl⟩
  simp only at hv
  split at hv
  · exact hothers hv
  · exact (List.mem_cons.1 hv).elim (fun h => ⟨.id, h⟩) hothers

/-- **Typed values are inserted** under an id that is not used, if there is one. -/
theorem insertEvent_of_typed {d : Draft} {t : Tables} {id : Int}
    (hid : storedId d t.events = .ok id) (hvalue : d.value .id = .null ∨ d.value .id = .int id)
    (htyped : (d.identified id).Typed) (hfresh : ∀ e ∈ t.events, e.id ≠ id) :
    insertEvent d false (some t) = .ok (t.adding ⟨id, storedCell d⟩, id) := by
  have hothers : ∀ c : Column, c ≠ .id → ∃ x, c.Holds x ∧ d.value c = x.value := by
    intro c hc
    obtain ⟨x, hx, h⟩ := htyped c
    rw [Draft.identified_of_ne (.inl hc)] at h
    exact ⟨x, hx, h⟩
  refine insertEvent_eq_ok_iff.2
    ⟨?_, t, rfl, exists_bindAll fun v hv => ?_, rfl, hid, ?_, hfresh, rfl⟩
  · rcases hvalue with h | h <;> rw [h] <;> rfl
  · obtain ⟨c, rfl⟩ := exists_column_of_mem_insertedValues hv
    by_cases hc : c = .id
    · subst hc
      rcases hvalue with h | h
      · rw [h]
        exact ⟨.null, rfl⟩
      · obtain ⟨x, hx, heq⟩ := htyped .id
        rw [Draft.identified_of_ne (.inr (by rw [h]; rfl))] at heq
        rw [heq]
        exact hx.exists_ofValue
    · obtain ⟨x, hx, h⟩ := hothers c hc
      rw [h]
      exact hx.exists_ofValue
  · rw [missingColumn?, List.find?_eq_none]
    intro c _
    by_cases hc : c = .id
    · simp [hc]
    · obtain ⟨x, hx, h⟩ := hothers c hc
      rw [storedCell_of_holds hx h]
      rcases hx with ⟨hoptional, -⟩ | hx
      · simp [hoptional]
      · have hne : x ≠ .null := by
          rintro rfl
          split at hx
          · obtain ⟨s, hs⟩ := hx
            cases hs
          · obtain ⟨i, hi, -⟩ := hx
            cases hi
        simp [hne]

section
variable {fields : List (String × Value)} (h : TypedFields fields) {t : Tables}
  (hid : ∀ i, fields.lookup "id" = some (.int i) → ∀ e ∈ t.events, e.id ≠ i)
  (hnext : fields.lookup "id" = none →
    ∀ e ∈ t.events, Cell.fits e.id = true ∧ e.id ≠ Cell.maxInt)
include h hid hnext

/-- The id of a new event: the one that is given, else the next one. -/
theorem exists_storedId {d : Draft}
    (hd : ∀ c : Column, d.value c = (fields.lookup c.label).getD .null) :
    ∃ id, storedId d.completed t.events = .ok id ∧ Cell.fits id = true ∧
      (∀ e ∈ t.events, e.id ≠ id) ∧ (∀ v, fields.lookup "id" = some v → v = .int id) ∧
      (d.completed.value .id = .null ∨ d.completed.value .id = .int id) := by
  cases hv : fields.lookup "id" with
  | none =>
    have hnull : d.completed.value .id = .null := by
      show (if (d.value .id).isNull then _ else d.value .id) = _
      rw [hd .id, Column.label, hv]
      rfl
    have hcell : storedCell d.completed .id = .null := by
      rw [storedCell, hnull]
      rfl
    refine ⟨nextId (t.events.map (·.id)), ?_, fits_nextId ?_, fun e he heq => ?_,
      fun v hsome => (by cases hsome), .inl hnull⟩
    · rw [storedId, hcell]
    · rw [List.forall_mem_map]
      exact hnext hv
    · exact absurd heq (ne_of_lt (lt_nextId (List.mem_map_of_mem he)))
  | some v =>
    obtain ⟨x, hx, rfl⟩ := h.exists_cell (c := .id) hv
    obtain ⟨i, rfl, hfits⟩ : ∃ i, x = .int i ∧ Cell.fits i = true :=
      hx.resolve_left fun h => (by cases h.1)
    have hvalue : d.completed.value .id = .int i := by
      show (if (d.value .id).isNull then _ else d.value .id) = _
      rw [hd .id, Column.label, hv]
      rfl
    have hcell : storedCell d.completed .id = .int i :=
      storedCell_of_holds (.inr ⟨i, rfl, hfits⟩) hvalue
    refine ⟨i, ?_, hfits, hid i hv, fun v hsome => (Option.some.inj hsome).symm, .inr hvalue⟩
    rw [storedId, hcell]

/-- **A new event of typed fields is stored**, and its record is that of the fields with its id. -/
theorem exists_stored {c : Connection} (hc : c.failed = false) (hlocked : c.locked = false)
    (ht : c.tables = some t) : ∃ x r,
      (createEvent fields).run c = (.ok x.draft, { c with pending := some (t.adding x) }) ∧
      (∀ e ∈ t.events, e.id ≠ x.id) ∧ (∀ v, fields.lookup "id" = some v → v = .int x.id) ∧
      x.WellTyped ∧ Record.ofFields (("id", .int x.id) :: fields) = .ok r ∧
      Record.ofDraft x.draft = .ok ⟨r.datum, x.scope⟩ := by
  obtain ⟨d, hd, hvalues⟩ := h.exists_ofFields
  obtain ⟨id, hstored, hfits, hfresh, hgiven, hvalue⟩ := exists_storedId h hid hnext hvalues
  have hidvalue : (d.completed.identified id).value .id = .int id := by
    rcases hvalue with hnull | hint
    · exact Draft.identified_of_isNull (by rw [hnull]; rfl) id
    · rw [Draft.identified_of_ne (.inr (by rw [hint]; rfl)), hint]
  have htyped : (d.completed.identified id).Typed := by
    intro c
    by_cases hc : c = .id
    · subst hc
      exact ⟨.int id, .inr ⟨id, rfl, hfits⟩, hidvalue⟩
    · obtain ⟨x, hx, hx', -⟩ := h.exists_completed hvalues hc
      exact ⟨x, hx, (Draft.identified_of_ne (.inl hc)).trans hx'⟩
  obtain ⟨hwell, hdraft⟩ := stored_of_typed hstored htyped
  obtain ⟨x, rfl, hwell, hdraft, hinsert⟩ : ∃ x : Event, x.id = id ∧ x.WellTyped ∧
      x.draft = d.completed.identified id ∧
        insertEvent d.completed false (some t) = .ok (t.adding x, id) :=
    ⟨_, rfl, hwell, hdraft, insertEvent_of_typed hstored hvalue htyped hfresh⟩
  obtain ⟨r, hr⟩ := Record.exists_ofDraft hwell
  obtain ⟨-, hassemble⟩ := Record.assemble_scope hr
  refine ⟨x, ⟨r.datum, .site⟩, ?_, hfresh, hgiven, hwell, ?_, hassemble x.scope⟩
  · have hchange : insertEvent d.completed c.locked c.tables = .ok (t.adding x, x.id) := by
      rw [ht, hlocked, hinsert]
    rw [createEvent, hd, hdraft]
    simp only
    rw [run_bind_of_ok (run_get c), run_bind_of_ok (run_change_of_ok hc hchange)]
    rfl
  · have hnoScope : (("id", .int x.id) :: fields).lookup "scope" = none := by
      rw [List.lookup_cons, h.lookup_eq_none fun c => by cases c <;> decide]
      rfl
    rw [Record.ofFields, hnoScope, ← hassemble .site]
    refine congrArg (Record.assemble · _) (funext fun c => ?_)
    by_cases hc : c = .id
    · subst hc
      rw [hdraft, hidvalue]
      rfl
    · obtain ⟨y, -, hy, hread⟩ := h.exists_completed hvalues hc
      have hne : (c.label == "id") = false :=
        beq_eq_false_iff_ne.2 fun heq => hc (Column.label_inj heq)
      rw [hdraft, Draft.identified_of_ne (.inl hc), hy, hread, List.lookup_cons, hne]
      cases fields.lookup c.label <;> rfl

end

/-! ## Later sessions -/

/-- What a session may become without the loss of uncommitted changes: calls are made, changes are
committed, and, with nothing left uncommitted, changes are rolled back or another session is opened.
-/
inductive Later (c : Connection) : Connection → Prop
  | here : Later c c
  | called {c' : Connection} (k : Call) : Later c c' → (k.FlushFails c' → c'.pending = none) →
    Later c (k.action.run c').2
  | committed {c' : Connection} : Later c c' → Later c (commit.run c').2
  | rolledBack {c' : Connection} : Later c c' → c'.pending = none → Later c (rollback.run c').2
  | reopened {c' : Connection} : Later c c' → c'.pending = none → Later c c'.sibling

/-- The session sees the event, which is the only one with its id. -/
def Sees (x : Event) (c : Connection) : Prop :=
  ∃ t, c.tables = some t ∧ x ∈ t.events ∧ ∀ e ∈ t.events, e.id = x.id → e = x

theorem tables_of_pending {c : Connection} (h : c.pending = none) : c.tables = c.committed := by
  rw [Connection.tables, h, Option.none_or]

theorem tables_run_commit (c : Connection) : (commit.run c).2.tables = c.tables := by
  obtain ⟨committed, pending, failed, locked⟩ := c
  cases failed <;> rfl

/-- A call that does not lose changes keeps every event that a session sees. -/
theorem Sees.called {x : Event} {c : Connection} (h : Sees x c) (k : Call)
    (hkeeps : k.FlushFails c → c.pending = none) : Sees x (k.action.run c).2 := by
  obtain ⟨t, ht, hmem, hunique⟩ := h
  obtain ⟨r, c', hrun, houtcome⟩ := k.exists_outcome c
  rw [hrun]
  cases houtcome with
  | refused f _ => exact ⟨t, ht, hmem, hunique⟩
  | broken f hfails =>
    refine ⟨t, ?_, hmem, hunique⟩
    rw [← ht, tables_of_pending (hkeeps hfails)]
    rfl
  | answered a _ _ _ _ =>
    obtain ⟨t', ht', heffect⟩ := Call.exists_effect hrun ht
    refine ⟨t', ht', ?_⟩
    rcases heffect.events with heq | ⟨y, heq, hfresh⟩
    · rw [heq]
      exact ⟨hmem, hunique⟩
    · rw [heq]
      refine ⟨List.mem_append_left _ hmem, fun e he hid => ?_⟩
      rcases List.mem_append.1 he with he | he
      · exact hunique e he hid
      · rw [List.mem_singleton.1 he] at hid
        exact absurd hid.symm (hfresh x hmem)

/-- **Events outlive sessions** as long as no uncommitted changes are lost. -/
theorem Later.sees {x : Event} {c c' : Connection} (h : Later c c') (hx : Sees x c) : Sees x c' := by
  induction h with
  | here => exact hx
  | called k _ hkeeps ih => exact ih.called k hkeeps
  | committed _ ih =>
    obtain ⟨t, ht, hseen⟩ := ih
    exact ⟨t, by rw [tables_run_commit, ht], hseen⟩
  | rolledBack _ hpending ih =>
    obtain ⟨t, ht, hseen⟩ := ih
    exact ⟨t, by rw [← ht, tables_of_pending hpending]; rfl, hseen⟩
  | reopened _ hpending ih =>
    obtain ⟨t, ht, hseen⟩ := ih
    exact ⟨t, by rw [← ht, tables_of_pending hpending]; rfl, hseen⟩

theorem mem_of_run {values : ByDimension Value} {o : Options} {c : Connection} {t : Tables}
    (ht : c.tables = some t) {events : List Event} (h : (rawEvents values o).run c = (.ok events, c))
    {e : Event} (he : e ∈ events) : e ∈ t.events := by
  rcases exists_execute_of_run h with rfl | ⟨s, -, hexecute⟩
  · cases he
  · rw [ht] at hexecute
    exact Listing.mem_of_execute hexecute he

/-- **A stored event reads as the record of its fields.** Typed fields are stored as one more row
with an id of its own. Whenever the event is listed, in the same session or a later one, its
document has the content that the fields have as a record, the defaults included, and the scope that
follows from its keys. -/
theorem createEvent_record {fields : List (String × Value)} (h : TypedFields fields) {t : Tables}
    (hid : ∀ i, fields.lookup "id" = some (.int i) → ∀ e ∈ t.events, e.id ≠ i)
    (hnext : fields.lookup "id" = none →
      ∀ e ∈ t.events, Cell.fits e.id = true ∧ e.id ≠ Cell.maxInt)
    {c : Connection} (hc : c.failed = false) (hlocked : c.locked = false)
    (ht : c.tables = some t) : ∃ x r,
      (createEvent fields).run c = (.ok x.draft, { c with pending := some (t.adding x) }) ∧
      (∀ e ∈ t.events, e.id ≠ x.id) ∧ (∀ v, fields.lookup "id" = some v → v = .int x.id) ∧
      Record.ofFields (("id", .int x.id) :: fields) = .ok r ∧
      ∀ c', Later { c with pending := some (t.adding x) } c' → ∀ values o events,
        (rawEvents values o).run c' = (.ok events, c') → ∀ e ∈ events, e.id = x.id →
          (Record.ofDraft e.draft).map Record.item
            = .ok (.object (Column.all.map (fun c => (c.label, (r.datum c).document)) ++
                [("scope", .text e.scope.name), ("kind", .text "calendar#event")])) := by
  obtain ⟨x, r, hrun, hfresh, hgiven, -, hfields, hdraft⟩ := exists_stored h hid hnext hc hlocked ht
  refine ⟨x, r, hrun, hfresh, hgiven, hfields, fun c' hlater values o events hlisted e he hsame => ?_⟩
  have hsees : Sees x { c with pending := some (t.adding x) } := by
    refine ⟨t.adding x, rfl, List.mem_append_right _ List.mem_cons_self, fun y hy hyid => ?_⟩
    rcases List.mem_append.1 hy with hy | hy
    · exact absurd hyid (hfresh y hy)
    · exact List.mem_singleton.1 hy
  obtain ⟨t', ht', -, hunique⟩ := hlater.sees hsees
  obtain rfl := hunique e (mem_of_run ht' hlisted he) hsame
  rw [hdraft, Except.map, Record.item, Record.entries, List.append_assoc]
  rfl

def lectureFields : List (String × Value) :=
  [("name", .text "lecture"), ("timesort", .null), ("courseid", .int 5), ("location", .null)]

/-- A lecture is found again in the next session, with the scope of its course. -/
theorem createEvent_record_of_lecture : ∃ x c' events r,
    (createEvent lectureFields).run (.opened (some .empty)) = (.ok x.draft, c') ∧
      (rawEvents ⟨.null, .null, .int 5, .null⟩ .default).run (commit.run c').2.sibling
        = (.ok events, (commit.run c').2.sibling) ∧
      x ∈ events ∧ Record.ofFields (("id", .int 1) :: lectureFields) = .ok r ∧
      (Record.ofDraft x.draft).map Record.item
        = .ok (.object (Column.all.map (fun c => (c.label, (r.datum c).document)) ++
            [("scope", .text "course"), ("kind", .text "calendar#event")])) := by
  have htyped : TypedFields lectureFields := by
    refine ⟨by decide, ?_⟩
    simp only [lectureFields, List.forall_mem_cons]
    refine ⟨⟨.name, .text "lecture", rfl, by decide, rfl⟩, ⟨.timesort, .null, rfl, by decide, rfl⟩,
      ⟨.courseid, .int 5, rfl, by decide, rfl⟩, ⟨.location, .null, rfl, by decide, rfl⟩, ?_⟩
    simp
  obtain ⟨x, r, hrun, -, -, hfields, hrecord⟩ :=
    createEvent_record htyped (t := .empty) (fun _ _ => List.forall_mem_nil _)
      (fun _ => List.forall_mem_nil _) (c := .opened (some .empty)) rfl rfl rfl
  have hx : x = ⟨1, storedCell ((Draft.ofFields lectureFields).toOption.getD .blank).completed⟩ := by
    have hpending := congrArg (fun result => result.2.pending) hrun
    cases hpending
    rfl
  have hsound : (Tables.empty.adding x).Sound := by
    rw [hx]
    decide
  have hcoerce : Filters.coerce ⟨.null, .null, .int 5, .null⟩
      = .ok ⟨.nobody, .nobody, .ofIds [5], .nobody⟩ := rfl
  have hlist := run_rawEvents_of_fits hcoerce (by decide)
    (c := (commit.run { Connection.opened (some .empty) with
      pending := some (Tables.empty.adding x) }).2.sibling) rfl rfl hsound false
  have hmem : x ∈ Listing.sortedEvents ⟨.nobody, .nobody, .ofIds [5], .nobody⟩ false
      (Tables.empty.adding x) (Listing.baseHolds ⟨.nobody, .nobody, .ofIds [5], .nobody⟩ false) false
      .timestart := by
    rw [Listing.mem_sortedEvents_iff hsound, hx]
    exact ⟨List.mem_singleton.2 rfl, by decide, by decide, by decide⟩
  refine ⟨x, _, _, r, hrun, hlist, hmem, by rw [← hfields, hx], ?_⟩
  rw [hrecord _ (.reopened (.committed .here) rfl) _ _ _ hlist x hmem rfl, hx]
  rfl

end Store

end EventCalendar
