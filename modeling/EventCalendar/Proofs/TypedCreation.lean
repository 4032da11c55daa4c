import EventCalendar.Proofs.StoredRecord
import EventCalendar.Store.Typed

/-!
# Creation with a checked result

A new event is stored before its record is checked, so that an event with a faulty record stays:

* `run_createEvent_error`: if no event is created and the session is still usable, then the fields
  describe none, and the session is as it was.
* `TypedFields.exists_record`: created events of typed fields have records.
* `run_createRecord`: the check changes nothing.
* `createRecord_failure`: **what a failed creation leaves behind**.
-/

set_option autoImplicit false

namespace EventCalendar

theorem TypedFields.exists_record {fields : List (String × Value)} (h : TypedFields fields)
    {d : Draft} (hd : Draft.ofFields fields = .ok d) (id : Int) :
    ∃ r, Record.ofDraft (d.completed.identified id) = .ok r := by
  obtain ⟨d', hd', hvalues⟩ := h.exists_ofFields
  obtain rfl : d = d' := Except.ok.inj (hd.symm.trans hd')
  refine Record.exists_ofDraft_of_reads fun c => ?_
  by_cases hc : c = .id
  · subst hc
    have hvalue : d.completed.value .id = d.value .id := by
      show (if (d.value .id).isNull then _ else d.value .id) = _
      cases d.value .id <;> rfl
    cases hv : fields.lookup Column.id.label with
    | none =>
      have hnull : (d.completed.value .id).isNull = true := by
        rw [hvalue, hvalues, hv]
        rfl
      exact ⟨.int id, by rw [Draft.identified_of_isNull hnull]; rfl⟩
    | some v =>
      obtain ⟨x, hx, rfl⟩ := h.exists_cell hv
      obtain ⟨i, rfl, -⟩ : ∃ i, x = .int i ∧ Cell.fits i = true :=
        hx.resolve_left fun h => (by cases h.1)
      have hint : d.completed.value .id = .int i := by
        rw [hvalue, hvalues, hv]
        rfl
      refine ⟨.int i, ?_⟩
      rw [Draft.identified_of_ne (.inr (by rw [hint]; rfl)), hint]
      rfl
  · obtain ⟨x, hx, hvalue, -⟩ := h.exists_completed hvalues hc
    rw [Draft.identified_of_ne (.inl hc), hvalue]
    exact Datum.exists_read hx

namespace Store

variable {fields : List (String × Value)} {c c' : Connection}

/-- If no event is created and the session is still usable, then the fields describe none, and the
session is as it was. -/
theorem run_createEvent_error {f : Failure} (h : (createEvent fields).run c = (.error f, c'))
    (hc' : c'.failed = false) :
    c' = c ∧ ∃ fault, Draft.ofFields fields = .error fault ∧ f = .field fault := by
  cases hd : Draft.ofFields fields with
  | error fault =>
    rw [run_createEvent_of_error _ hd] at h
    cases h
    exact ⟨rfl, fault, rfl, rfl⟩
  | ok d =>
    -- Whatever fails from here on needs a rollback.
    rw [run_createEvent _ hd] at h
    exfalso
    cases hc : c.failed with
    | true =>
      rw [run_bind_of_error (run_change_of_failed hc)] at h
      cases h
      rw [hc] at hc'
      cases hc'
    | false =>
      cases hinsert : insertEvent d.completed c.locked c.tables with
      | error f' =>
        rw [run_bind_of_error (run_change_of_error hc hinsert)] at h
        cases h
        cases hc'
      | ok p =>
        obtain ⟨t, id⟩ := p
        rw [run_bind_of_ok (run_change_of_ok hc hinsert)] at h
        cases h

theorem exists_ofFields_of_run {d : Draft} (h : (createEvent fields).run c = (.ok d, c')) :
    ∃ d₀ id, Draft.ofFields fields = .ok d₀ ∧ d = d₀.completed.identified id := by
  cases hd : Draft.ofFields fields with
  | error fault =>
    rw [run_createEvent_of_error _ hd] at h
    cases h
  | ok d₀ =>
    rw [run_createEvent _ hd] at h
    obtain ⟨id, c₁, -, h⟩ := run_bind_eq_ok_iff.1 h
    cases h
    exact ⟨d₀, id, rfl, rfl⟩

theorem run_createRecord {d : Draft} (h : (createEvent fields).run c = (.ok d, c')) :
    (createRecord fields).run c = ((Record.ofDraft d).mapError .record, c') := by
  rw [createRecord, run_bind_of_ok h, record]
  cases Record.ofDraft d <;> rfl

theorem run_createRecord_of_error {f : Failure} (h : (createEvent fields).run c = (.error f, c')) :
    (createRecord fields).run c = (.error f, c') :=
  run_bind_of_error h

theorem committed_of_run {result : Except Failure Record}
    (h : (createRecord fields).run c = (result, c')) : c'.committed = c.committed := by
  obtain ⟨answer, c₁, hanswer, houtcome⟩ := exists_outcome_create fields c
  have hcommitted : c₁.committed = c.committed := by
    cases houtcome with
    | refused => rfl
    | answered _ _ hsame => exact hsame
    | broken => rfl
  cases hrun : (createEvent fields).run c with
  | mk created c₂ =>
    cases created with
    | error f =>
      rw [Call.action, run_bind_of_error hrun] at hanswer
      rw [run_createRecord_of_error hrun] at h
      cases hanswer
      cases h
      exact hcommitted
    | ok d =>
      rw [Call.action, run_bind_of_ok hrun] at hanswer
      rw [run_createRecord hrun] at h
      cases hanswer
      cases h
      exact hcommitted

theorem committed_of_finish_error {α : Type} {result : Except Failure α} {f : Failure}
    (h : (finish result c).1 = .error f) : (finish result c).2 = c.committed := by
  cases result with
  | error g => rfl
  | ok a =>
    cases hc : c.failed with
    | false =>
      rw [finish_ok hc] at h
      cases h
    | true => rw [finish_ok_of_failed hc]

/-- A creation that fails in a session that is still usable has not begun, or has only failed at the
record of the event that it has stored. -/
theorem run_createRecord_error {f : Failure} (h : (createRecord fields).run c = (.error f, c'))
    (hc' : c'.failed = false) :
    (c' = c ∧ ∃ fault, Draft.ofFields fields = .error fault ∧ f = .field fault) ∨
      ∃ d faults, (createEvent fields).run c = (.ok d, c') ∧ Record.ofDraft d = .error faults ∧
        f = .record faults := by
  cases hrun : (createEvent fields).run c with
  | mk result c₁ =>
    cases result with
    | error f₁ =>
      rw [run_createRecord_of_error hrun] at h
      cases h
      exact .inl (run_createEvent_error hrun hc')
    | ok d =>
      rw [run_createRecord hrun] at h
      cases hr : Record.ofDraft d with
      | ok r =>
        rw [hr] at h
        cases h
      | error faults =>
        rw [hr] at h
        cases h
        exact .inr ⟨d, faults, rfl, hr, rfl⟩

/-- **What a failed creation leaves behind.** A creation that fails in a session that is still
usable has either not begun, for fields that no event has, and left the session as it was; or it has
failed at the record of the event. Then the event is created all the same, as it is without the
check: the session has one more event, of a new id, uncommitted, and nothing else has changed. It is
committed with the session, and dropped by a rollback. A session of its own that ends with the
failure leaves the committed tables as they were. Typed fields never fail in a session that is still
usable. -/
theorem createRecord_failure (fields : List (String × Value)) (c : Connection) :
    (∀ f c', (createRecord fields).run c = (.error f, c') → c'.failed = false →
      (c' = c ∧ ∃ fault, Draft.ofFields fields = .error fault ∧ f = .field fault) ∨
      ∃ d faults, (createEvent fields).run c = (.ok d, c') ∧ Record.ofDraft d = .error faults ∧
        f = .record faults) ∧
    (∀ d c' faults, (createEvent fields).run c = (.ok d, c') → Record.ofDraft d = .error faults →
      (createRecord fields).run c = (.error (.record faults), c') ∧
      ∃ t x, c.tables = some t ∧ (∀ e ∈ t.events, e.id ≠ x.id) ∧
        c' = { c with pending := some (t.adding x) } ∧
        (commit.run c').2.committed = some (t.adding x) ∧
        (rollback.run c').2.tables = c.committed) ∧
    (∀ f c', withSession (createRecord fields) c = (.error f, c') → c' = c) ∧
    (TypedFields fields → ∀ f c', (createRecord fields).run c = (.error f, c') →
      c'.failed = true) := by
  refine ⟨fun f c' => run_createRecord_error, fun d c' faults hcreated hr => ⟨?_, ?_⟩,
    fun f c' h => ?_, fun htyped f c' h => ?_⟩
  · rw [run_createRecord hcreated, hr]
    rfl
  · obtain ⟨hc, t, x, ht, rfl, hfresh, -⟩ := createEvent_adds hcreated
    have hcommitted : (commit.run { c with pending := some (t.adding x) }).2.committed
        = some (t.adding x) := by
      obtain ⟨committed, pending, failed, locked⟩ := c
      cases hc
      rfl
    exact ⟨t, x, ht, hfresh, rfl, hcommitted, rfl⟩
  · cases hrun : (createRecord fields).run c.sibling with
    | mk result inner =>
      rw [withSession_eq hrun] at h
      obtain ⟨hresult, rfl⟩ := Prod.mk.inj h
      rw [committed_of_finish_error hresult, committed_of_run hrun]
      rfl
  · by_contra hc'
    rcases run_createRecord_error h (by simpa using hc') with
      ⟨-, fault, hd, -⟩ | ⟨d, faults, hcreated, hr, -⟩
    · obtain ⟨d, hd', -⟩ := htyped.exists_ofFields
      rw [hd'] at hd
      cases hd
    · obtain ⟨d₀, id, hd₀, rfl⟩ := exists_ofFields_of_run hcreated
      obtain ⟨r, hr'⟩ := htyped.exists_record hd₀ id
      rw [hr'] at hr
      cases hr

/-! ## A name that is no text -/

def numberNamed : List (String × Value) := [("courseid", .int 5), ("name", .int 5)]

/-- An event whose name is a number fails at its record, and is committed with the session. -/
theorem createRecord_keeps_number_name : ∃ c',
    (createRecord numberNamed).run (.opened (some .empty))
      = (.error (.record [("name", .noText)]), c') ∧ c'.failed = false ∧
      (Connection.opened (some .empty)).tables.map (·.events.map (·.id)) = some [] ∧
      c'.tables.map (·.events.map (·.id)) = some [1] ∧
      (commit.run c').2.committed.map (·.events.map (·.id)) = some [1] :=
  ⟨_, rfl, rfl, rfl, rfl, rfl⟩

def takenId : Tables := ⟨[⟨1, fun _ => .null⟩], []⟩

/-- What that event leaves behind, and an event whose id is taken. -/
theorem createRecord_failure_of_number_name : ∃ (t : Tables) (x : Event) (c' : Connection),
    (createRecord numberNamed).run (.opened (some .empty))
      = (.error (.record [("name", .noText)]), c') ∧
      (commit.run c').2.committed = some (t.adding x) ∧
      (rollback.run c').2.tables = some .empty ∧
      (withSession (createRecord numberNamed) (.opened (some .empty))).2
        = .opened (some .empty) ∧
      ((createRecord [("id", .int 1)]).run (.opened (some takenId))).2.failed = true := by
  obtain ⟨hfailed, hfaulty, hown, -⟩ := createRecord_failure numberNamed (.opened (some .empty))
  obtain ⟨hrun, t, x, -, -, hc', hcommit, hrollback⟩ := hfaulty _ _ [("name", .noText)] rfl rfl
  have htyped : TypedFields [("id", .int 1)] := by
    refine ⟨by decide, ?_⟩
    simp only [List.forall_mem_cons]
    exact ⟨⟨.id, .int 1, rfl, by decide, rfl⟩, List.forall_mem_nil _⟩
  refine ⟨t, x, _, hrun, hcommit, hrollback, hown _ _ rfl, ?_⟩
  exact (createRecord_failure [("id", .int 1)] (.opened (some takenId))).2.2.2 htyped
    (.refused .integrity "UNIQUE constraint failed: event.id")
    (Connection.opened (some takenId)).broken rfl

end Store

end EventCalendar
