import EventCalendar.Proofs.NewEvent
import EventCalendar.Proofs.StatementRuns
import EventCalendar.Store.Visibility

/-!
# Sessions are all or nothing

What runs in a session is a sequence of calls, each of which may fail. The failure may be ignored,
and more calls may follow. A call that fails while it changes the tables, though, loses all changes
of the session, which is refused everything from then on:

* `Call.exists_outcome`: what one call does to a session.
* `Block.exists_run`: what a whole block of calls does to it.
* `Block.pairwise_refused`: after a failed change every call is refused.
* `withSession_block`: **a session is all or nothing**.
-/

set_option autoImplicit false

namespace EventCalendar

namespace Store

open Listing (Options Statement plan)

/-! ## Calls -/

inductive Call
  | create (fields : List (String × Value))
  | setModule (name visible : Value)
  | list (values : ByDimension Value) (o : Options)

inductive Answer
  | created (d : Draft)
  | moduleSet (m : ModuleDraft)
  | listed (events : List Event)

namespace Call

def action : Call → Action Answer
  | .create fields => createEvent fields >>= fun d => pure (.created d)
  | .setModule name visible => setModuleVisibility name visible >>= fun m => pure (.moduleSet m)
  | .list values o => rawEvents values o >>= fun events => pure (.listed events)

/-- The changed tables that a call writes, or why it cannot write them. A call that has nothing to
change, or fails before it comes to that, writes nothing. -/
def flush? (c : Connection) : Call → Option (Except Failure Tables)
  | .create fields =>
    match Draft.ofFields fields with
    | .error _ => none
    | .ok d => some ((insertEvent d.completed c.locked c.tables).map (·.1))
  | .setModule name visible =>
    match ((lookUpModule name).run c).1, visibility visible with
    | .ok none, .ok n => some ((insertModule name n c.locked c.tables).map (·.1))
    | .ok (some m), .ok n =>
      if m.visible = .int n then none
      else some ((updateModule m n c.locked c.tables).map (·.1))
    | _, _ => none
  | .list .. => none

/-- The call fails while it writes its changes. -/
def FlushFails (k : Call) (c : Connection) : Prop :=
  c.failed = false ∧ ∃ f, k.flush? c = some (.error f)

end Call

/-- The tables with the visibility of a module set; it is added if it is new. -/
def withModule (name : Cell) (visible : Int) (t : Tables) : Tables :=
  match findModule? name t with
  | none =>
    { t with modules := t.modules ++
        [⟨nextId (t.modules.map (·.id)), name.convert .text, .int visible⟩] }
  | some m =>
    if m.visible = .int visible then t
    else
      { t with modules := t.modules.map fun x =>
          if x.id = m.id then { x with visible := .int visible } else x }

/-- What a call that does not fail makes of the tables. -/
def Call.effect : Call → Tables → Tables
  | .create fields, t =>
    match Draft.ofFields fields with
    | .error _ => t
    | .ok d =>
      match storedId d.completed t.events with
      | .error _ => t
      | .ok id => t.adding ⟨id, storedCell d.completed⟩
  | .setModule name visible, t =>
    match Cell.ofValue name, visibility visible with
    | .ok cell, .ok n => withModule cell n t
    | _, _ => t
  | .list .., t => t

/-! ## Outcomes -/

theorem run_requireUsable_of_failed {c : Connection} (hc : c.failed = true) :
    requireUsable.run c = (.error .pendingRollback, c) := by
  obtain ⟨committed, pending, failed, locked⟩ := c
  subst hc
  rfl

theorem run_requireUsable {c : Connection} (hc : c.failed = false) :
    requireUsable.run c = (.ok (), c) := by
  obtain ⟨committed, pending, failed, locked⟩ := c
  subst hc
  rfl

theorem run_get (c : Connection) : (get : Action Connection).run c = (.ok c, c) := rfl

section
variable {α : Type} {step : Option Tables → Except Failure (Tables × α)} {c : Connection}

theorem run_change_of_failed (hc : c.failed = true) :
    (change step).run c = (.error .pendingRollback, c) :=
  run_bind_of_error (run_requireUsable_of_failed hc)

theorem run_change_of_ok (hc : c.failed = false) {t : Tables} {a : α}
    (h : step c.tables = .ok (t, a)) :
    (change step).run c = (.ok a, { c with pending := some t }) :=
  run_change_eq_ok_iff.2 ⟨hc, t, h, rfl⟩

theorem run_change_of_error (hc : c.failed = false) {f : Failure}
    (h : step c.tables = .error f) : (change step).run c = (.error f, c.broken) := by
  rw [change, run_bind_of_ok (run_requireUsable hc), run_bind_of_ok (run_get c), h]
  rfl

end

/-- What a call does to a session. -/
inductive Outcome (k : Call) (c : Connection) : Except Failure Answer → Connection → Prop
  /-- It fails, and nothing has changed. -/
  | refused (f : Failure) : ¬ k.FlushFails c → Outcome k c (.error f) c
  /-- It has its effect on the tables that the session sees. -/
  | answered (a : Answer) {c' : Connection} : ¬ k.FlushFails c → c'.committed = c.committed →
    c'.failed = c.failed → c'.tables = c.tables.map k.effect → Outcome k c (.ok a) c'
  /-- It fails while it writes its changes, and breaks the session. -/
  | broken (f : Failure) : k.FlushFails c → Outcome k c (.error f) c.broken

theorem Call.not_flushFails_of_failed {k : Call} {c : Connection} (hc : c.failed = true) :
    ¬ k.FlushFails c := by
  intro h
  rw [h.1] at hc
  cases hc

theorem Call.not_flushFails {k : Call} {c : Connection}
    (h : ∀ f, k.flush? c ≠ some (.error f)) : ¬ k.FlushFails c := by
  intro hfails
  obtain ⟨-, f, hf⟩ := hfails
  exact h f hf

/-- What a call does that ends with a change. -/
theorem exists_outcome_of_change {α : Type} {step : Option Tables → Except Failure (Tables × α)}
    {answer : α → Answer} {k : Call} {c : Connection}
    (hk : k.flush? c = some ((step c.tables).map (·.1)))
    (hstep : ∀ t' a, step c.tables = .ok (t', a) → ∃ t, c.tables = some t ∧ t' = k.effect t) :
    ∃ r c', (change step >>= fun a => pure (answer a)).run c = (r, c') ∧ Outcome k c r c' := by
  cases hc : c.failed with
  | true =>
    exact ⟨_, _, run_bind_of_error (run_change_of_failed hc),
      .refused _ (Call.not_flushFails_of_failed hc)⟩
  | false =>
    cases h : step c.tables with
    | error f =>
      rw [h] at hk
      exact ⟨_, _, run_bind_of_error (run_change_of_error hc h), .broken f ⟨hc, f, hk⟩⟩
    | ok p =>
      obtain ⟨t', a⟩ := p
      obtain ⟨t, ht, rfl⟩ := hstep t' a h
      rw [h] at hk
      refine ⟨_, _, run_bind_of_ok (run_change_of_ok hc h),
        .answered _ (Call.not_flushFails fun f hf => ?_) rfl rfl ?_⟩
      · rw [hk] at hf
        cases hf
      · rw [ht]
        rfl

section
variable {fields : List (String × Value)} (c : Connection)

theorem run_createEvent_of_error {f : FieldFault} (h : Draft.ofFields fields = .error f) :
    (createEvent fields).run c = (.error (.field f), c) := by
  rw [createEvent, h]
  rfl

theorem run_createEvent {d : Draft} (h : Draft.ofFields fields = .ok d) :
    (createEvent fields).run c = (change (insertEvent d.completed c.locked) >>=
      fun id => pure (d.completed.identified id)).run c := by
  rw [createEvent, h]
  exact run_bind_of_ok (run_get c)

theorem run_create_of_error {f : FieldFault} (h : Draft.ofFields fields = .error f) :
    (Call.create fields).action.run c = (.error (.field f), c) :=
  run_bind_of_error (run_createEvent_of_error c h)

theorem run_create_of_ok {d : Draft} (h : Draft.ofFields fields = .ok d) :
    (Call.create fields).action.run c = (change (insertEvent d.completed c.locked) >>=
      fun id => pure (.created (d.completed.identified id))).run c := by
  simp only [Call.action, createEvent, h, bind_assoc, pure_bind]
  rw [run_bind_of_ok (run_get c)]

theorem flush?_create {d : Draft} (h : Draft.ofFields fields = .ok d) :
    (Call.create fields).flush? c
      = some ((insertEvent d.completed c.locked c.tables).map (·.1)) := by
  rw [Call.flush?, h]

end

theorem exists_outcome_create (fields : List (String × Value)) (c : Connection) :
    ∃ r c', (Call.create fields).action.run c = (r, c') ∧ Outcome (.create fields) c r c' := by
  cases hd : Draft.ofFields fields with
  | error f =>
    refine ⟨_, _, run_create_of_error c hd, .refused _ (Call.not_flushFails fun f hf => ?_)⟩
    rw [Call.flush?, hd] at hf
    cases hf
  | ok d =>
    rw [run_create_of_ok c hd]
    refine exists_outcome_of_change (flush?_create c hd) fun t' id h => ?_
    obtain ⟨-, t, ht, -, -, hid, -, -, rfl⟩ := insertEvent_eq_ok_iff.1 h
    exact ⟨t, ht, by rw [Call.effect, hd]; simp only [hid]⟩

theorem exists_run_lookUpModule (name : Value) (c : Connection) :
    ∃ r, (lookUpModule name).run c = (r, c) ∧ ∀ found, r = .ok found →
      ∃ t cell, c.tables = some t ∧ Cell.ofValue name = .ok cell ∧ found = findModule? cell t := by
  cases hc : c.failed with
  | true => exact ⟨_, run_bind_of_error (run_requireUsable_of_failed hc), fun _ h => (by cases h)⟩
  | false =>
    rw [lookUpModule, run_bind_of_ok (run_requireUsable hc), run_bind_of_ok (run_get c)]
    cases c.tables with
    | none => exact ⟨_, rfl, fun _ h => (by cases h)⟩
    | some t =>
      cases Cell.ofValue name with
      | error f => exact ⟨_, rfl, fun _ h => (by cases h)⟩
      | ok cell => exact ⟨_, rfl, fun _ h => ⟨t, cell, rfl, rfl, (Except.ok.inj h).symm⟩⟩

theorem eq_withModule_of_insertModule {name : Value} {cell : Cell} {n : Int} {locked : Bool}
    {t t' : Tables} {m : ModuleDraft} (hcell : Cell.ofValue name = .ok cell)
    (hfound : findModule? cell t = none)
    (h : insertModule name n locked (some t) = .ok (t', m)) : t' = withModule cell n t := by
  have hvalue : (Cell.ofValue name).toOption.getD .null = cell := by
    rw [hcell]
    rfl
  simp only [insertModule, hvalue] at h
  cases hbind : bindAll 1 [name, .int n] with
  | error f =>
    rw [hbind] at h
    cases h
  | ok cells =>
    rw [hbind] at h
    cases locked with
    | true => cases h
    | false =>
      rw [withModule, hfound]
      by_cases hnull : cell.convert .text = .null
      · simp only [hnull, if_true] at h
        cases h
      · simp only [hnull, if_false] at h
        cases h
        rfl

theorem eq_withModule_of_updateModule {found : Module} {cell : Cell} {n : Int} {locked : Bool}
    {t t' : Tables} {m : ModuleDraft} (hfound : findModule? cell t = some found)
    (hvisible : found.visible ≠ .int n)
    (h : updateModule found n locked (some t) = .ok (t', m)) : t' = withModule cell n t := by
  unfold updateModule at h
  cases hbind : bindAll 1 [.int n] with
  | error f =>
    rw [hbind] at h
    cases h
  | ok cells =>
    rw [hbind] at h
    cases locked with
    | true => cases h
    | false =>
      cases h
      rw [withModule, hfound]
      exact (if_neg hvisible).symm

theorem exists_outcome_setModule (name visible : Value) (c : Connection) :
    ∃ r c', (Call.setModule name visible).action.run c = (r, c') ∧
      Outcome (.setModule name visible) c r c' := by
  obtain ⟨r, hlookUp, hr⟩ := exists_run_lookUpModule name c
  simp only [Call.action, setModuleVisibility, bind_assoc]
  cases r with
  | error f =>
    refine ⟨_, _, run_bind_of_error hlookUp, .refused _ (Call.not_flushFails fun f hf => ?_)⟩
    rw [Call.flush?, hlookUp] at hf
    cases hf
  | ok found =>
    obtain ⟨t, cell, ht, hcell, rfl⟩ := hr found rfl
    rw [run_bind_of_ok hlookUp]
    cases hvisible : visibility visible with
    | error f =>
      refine ⟨_, _, rfl, .refused _ (Call.not_flushFails fun f hf => ?_)⟩
      rw [Call.flush?, hlookUp, hvisible] at hf
      cases hfound : findModule? cell t <;> rw [hfound] at hf <;> cases hf
    | ok n =>
      have heffect : (Call.setModule name visible).effect t = withModule cell n t := by
        rw [Call.effect, hcell, hvisible]
      simp only [bind_assoc]
      rw [run_bind_of_ok (run_get c)]
      cases hfound : findModule? cell t with
      | none =>
        refine exists_outcome_of_change (by rw [Call.flush?, hlookUp, hvisible, hfound])
          fun t' m h => ⟨t, ht, ?_⟩
        rw [ht] at h
        rw [heffect]
        exact eq_withModule_of_insertModule hcell hfound h
      | some m =>
        by_cases hsame : m.visible = .int n
        · simp only [hsame, if_true, pure_bind]
          refine ⟨_, _, rfl, .answered _ (Call.not_flushFails fun f hf => ?_) rfl rfl ?_⟩
          · rw [Call.flush?, hlookUp, hvisible, hfound] at hf
            simp [hsame] at hf
          · rw [ht, Option.map_some, heffect, withModule, hfound]
            simp [hsame]
        · simp only [hsame, if_false]
          refine exists_outcome_of_change ?_ fun t' m' h => ⟨t, ht, ?_⟩
          · rw [Call.flush?, hlookUp, hvisible, hfound]
            simp [hsame]
          · rw [ht] at h
            rw [heffect]
            exact eq_withModule_of_updateModule hfound hsame h

theorem exists_outcome_list (values : ByDimension Value) (o : Options) (c : Connection) :
    ∃ r c', (Call.list values o).action.run c = (r, c') ∧ Outcome (.list values o) c r c' := by
  have hnone : ¬ (Call.list values o).FlushFails c := Call.not_flushFails fun f hf => (by cases hf)
  obtain ⟨result, hrun⟩ := exists_run_rawEvents values o c
  cases result with
  | error f => exact ⟨_, _, run_bind_of_error hrun, .refused f hnone⟩
  | ok events =>
    refine ⟨_, _, run_bind_of_ok hrun, .answered _ hnone rfl rfl ?_⟩
    cases c.tables <;> rfl

/-- **What a call does to a session.** -/
theorem Call.exists_outcome (k : Call) (c : Connection) :
    ∃ r c', k.action.run c = (r, c') ∧ Outcome k c r c' := by
  cases k with
  | create fields => exact exists_outcome_create fields c
  | setModule name visible => exact exists_outcome_setModule name visible c
  | list values o => exact exists_outcome_list values o c

/-- What a call that is answered makes of the tables. -/
inductive Effect (t : Tables) : Call → Tables → Prop
  /-- There is one more event, with an id of its own. -/
  | created {fields : List (String × Value)} (x : Event) :
    (∀ e ∈ t.events, e.id ≠ x.id) → Effect t (.create fields) (t.adding x)
  | moduleSet {name visible : Value} {cell : Cell} {n : Int} : Cell.ofValue name = .ok cell →
    visibility visible = .ok n → Effect t (.setModule name visible) (withModule cell n t)
  | listed {values : ByDimension Value} {o : Options} : Effect t (.list values o) t

/-- **What an answered call does to the tables.** -/
theorem Call.exists_effect {k : Call} {c c' : Connection} {a : Answer}
    (h : k.action.run c = (.ok a, c')) {t : Tables} (ht : c.tables = some t) :
    ∃ t', c'.tables = some t' ∧ Effect t k t' := by
  cases k with
  | create fields =>
    obtain ⟨d, c₁, hcreated, hdone⟩ := run_bind_eq_ok_iff.1 h
    cases hdone
    obtain ⟨-, t₀, x, ht₀, rfl, hfresh, -⟩ := createEvent_adds hcreated
    cases ht.symm.trans ht₀
    exact ⟨_, rfl, .created x hfresh⟩
  | setModule name visible =>
    obtain ⟨r, c₁, hrun, houtcome⟩ := (Call.setModule name visible).exists_outcome c
    cases h.symm.trans hrun
    cases houtcome with
    | answered _ _ _ _ htables =>
      obtain ⟨m, c₁, hset, -⟩ := run_bind_eq_ok_iff.1 h
      obtain ⟨found, c₂, hlookUp, hrest⟩ := run_bind_eq_ok_iff.1 hset
      obtain ⟨r, hrun', hr⟩ := exists_run_lookUpModule name c
      cases hlookUp.symm.trans hrun'
      obtain ⟨-, cell, -, hcell, -⟩ := hr found rfl
      cases hvisible : visibility visible with
      | error f =>
        rw [hvisible] at hrest
        cases hrest
      | ok n =>
        refine ⟨withModule cell n t, ?_, .moduleSet hcell hvisible⟩
        rw [htables, ht, Option.map_some, Call.effect, hcell, hvisible]
  | list values o =>
    obtain ⟨events, c₁, hlisted, hdone⟩ := run_bind_eq_ok_iff.1 h
    cases hdone
    obtain ⟨result, hrun⟩ := exists_run_rawEvents values o c
    cases hlisted.symm.trans hrun
    exact ⟨t, ht, .listed⟩

theorem Call.failed_of_answered {k : Call} {c c' : Connection} {a : Answer}
    (h : k.action.run c = (.ok a, c')) : c'.failed = c.failed := by
  obtain ⟨r, c₁, hrun, houtcome⟩ := k.exists_outcome c
  cases h.symm.trans hrun
  cases houtcome with
  | answered _ _ _ hfailed _ => exact hfailed

theorem withModule_events (name : Cell) (visible : Int) (t : Tables) :
    (withModule name visible t).events = t.events := by
  unfold withModule
  split
  · rfl
  · split <;> rfl

/-- **Stored events stay as they are.** A call adds one event with an id of its own, or none. -/
theorem Effect.events {t t' : Tables} {k : Call} (h : Effect t k t') :
    t'.events = t.events ∨
      ∃ x, t'.events = t.events ++ [x] ∧ ∀ e ∈ t.events, e.id ≠ x.id := by
  cases h with
  | created x hfresh => exact .inr ⟨x, rfl, hfresh⟩
  | moduleSet => exact .inl (withModule_events ..)
  | listed => exact .inl rfl

/-! ## Blocks of calls -/

/-- What runs in a session: calls, and an end. What follows a call may depend on what it comes to,
so a failure may be ignored or passed on. -/
inductive Block (α : Type)
  | done (a : α)
  | fail (f : Failure)
  | call (k : Call) (next : Except Failure Answer → Block α)

structure Step where
  call : Call
  before : Connection
  result : Except Failure Answer

namespace Step

def FlushFails (s : Step) : Prop := s.call.FlushFails s.before

/-- What a call makes of the tables: its effect, unless it fails. -/
def apply (t : Tables) (s : Step) : Tables :=
  match s.result with
  | .ok _ => s.call.effect t
  | .error _ => t

/-- The call fails as far as it asks the store for anything. -/
def Refused (s : Step) : Prop :=
  match s.call with
  | .create fields =>
    match Draft.ofFields fields with
    | .error f => s.result = .error (.field f)
    | .ok _ => s.result = .error .pendingRollback
  | .setModule .. => s.result = .error .pendingRollback
  | .list values o => ∀ statement, plan values o = .ok (some statement) →
    s.result = .error (.query .pendingRollback)

end Step

namespace Block

variable {α : Type}

def action : Block α → Action α
  | .done a => pure a
  | .fail f => throw f
  | .call k next => fun c => (next (k.action.run c).1).action (k.action.run c).2

def steps : Block α → Connection → List Step
  | .done _, _ => []
  | .fail _, _ => []
  | .call k next, c =>
    ⟨k, c, (k.action.run c).1⟩ :: (next (k.action.run c).1).steps (k.action.run c).2

section
variable {k : Call} {next : Except Failure Answer → Block α} {c c' : Connection}
  {r : Except Failure Answer} (h : k.action.run c = (r, c'))
include h

theorem run_call : (Block.call k next).action.run c = (next r).action.run c' := by
  have hcall : (Block.call k next).action.run c
      = (next (k.action.run c).1).action.run (k.action.run c).2 := rfl
  rw [hcall, h]

theorem steps_call : (Block.call k next).steps c = ⟨k, c, r⟩ :: (next r).steps c' := by
  rw [steps, h]

end

/-- **What a block does to a session.** It leaves the committed tables alone. If it writes all its
changes, its calls have had their effects; if it fails to write one, the session is broken. -/
theorem exists_run (b : Block α) (c : Connection) :
    ∃ r c', b.action.run c = (r, c') ∧ c'.committed = c.committed ∧
      ((∀ s ∈ b.steps c, ¬ s.FlushFails) → c'.failed = c.failed ∧
        c'.tables = c.tables.map fun t => (b.steps c).foldl Step.apply t) ∧
      ((∃ s ∈ b.steps c, s.FlushFails) → c'.failed = true) := by
  induction b generalizing c with
  | done a =>
    refine ⟨_, _, rfl, rfl, fun _ => ⟨rfl, ?_⟩, fun h => ?_⟩
    · cases c.tables <;> rfl
    · obtain ⟨s, hs, -⟩ := h
      cases hs
  | fail f =>
    refine ⟨_, _, rfl, rfl, fun _ => ⟨rfl, ?_⟩, fun h => ?_⟩
    · cases c.tables <;> rfl
    · obtain ⟨s, hs, -⟩ := h
      cases hs
  | call k next ih =>
    obtain ⟨r, c₁, hrun, houtcome⟩ := k.exists_outcome c
    obtain ⟨r', c', hrun', hcommitted, hkept, hbroken⟩ := ih r c₁
    rw [run_call hrun, steps_call hrun]
    refine ⟨r', c', hrun', ?_, fun hnone => ?_, fun hsome => ?_⟩
    · rw [hcommitted]
      cases houtcome with
      | refused f hk => rfl
      | answered a hk hc hf ht => exact hc
      | broken f hk => rfl
    · obtain ⟨hhead, htail⟩ := List.forall_mem_cons.1 hnone
      obtain ⟨hfailed, htables⟩ := hkept htail
      rw [hfailed, htables]
      simp only [List.foldl_cons]
      cases houtcome with
      | refused f hk => exact ⟨rfl, rfl⟩
      | answered a hk hc hf ht =>
        refine ⟨hf, ?_⟩
        rw [ht, Option.map_map]
        rfl
      | broken f hk => exact absurd hk hhead
    · by_cases hrest : ∃ s ∈ (next r).steps c₁, s.FlushFails
      · exact hbroken hrest
      · -- Nothing fails after the first call, which is the one that breaks the session.
        obtain ⟨hfailed, -⟩ := hkept fun s hs hfails => hrest ⟨s, hs, hfails⟩
        obtain ⟨s, hs, hfails⟩ := hsome
        have hhead : k.FlushFails c := by
          rcases List.mem_cons.1 hs with rfl | hs
          · exact hfails
          · exact absurd ⟨s, hs, hfails⟩ hrest
        rw [hfailed]
        cases houtcome with
        | refused f hk => exact absurd hhead hk
        | answered a hk hc hf ht => exact absurd hhead hk
        | broken f hk => rfl

end Block

/-! ## Broken sessions -/

theorem refused_of_failed {k : Call} {c c' : Connection} {r : Except Failure Answer}
    (hc : c.failed = true) (h : k.action.run c = (r, c')) : Step.Refused ⟨k, c, r⟩ := by
  have hr : ∀ f, k.action.run c = (.error f, c) → r = .error f := by
    intro f hf
    cases hf.symm.trans h
    rfl
  cases k with
  | create fields =>
    cases hd : Draft.ofFields fields with
    | error f =>
      simp only [Step.Refused, hd]
      exact hr _ (run_create_of_error c hd)
    | ok d =>
      simp only [Step.Refused, hd]
      refine hr _ ?_
      rw [run_create_of_ok c hd]
      exact run_bind_of_error (run_change_of_failed hc)
  | setModule name visible =>
    have hlookUp : (lookUpModule name).run c = (.error .pendingRollback, c) :=
      run_bind_of_error (run_requireUsable_of_failed hc)
    exact hr _ (run_bind_of_error (run_bind_of_error hlookUp))
  | list values o =>
    intro statement hplan
    refine hr _ (run_bind_of_error ?_)
    rw [rawEvents, hplan]
    exact run_query_of_failed _ hc

namespace Block

variable {α : Type}

theorem refused_of_failed (b : Block α) {c : Connection} (hc : c.failed = true) :
    ∀ s ∈ b.steps c, s.Refused := by
  induction b generalizing c with
  | done a => exact List.forall_mem_nil _
  | fail f => exact List.forall_mem_nil _
  | call k next ih =>
    obtain ⟨r, c', hrun, houtcome⟩ := k.exists_outcome c
    have hc' : c'.failed = true := by
      cases houtcome with
      | refused f hk => exact hc
      | answered a hk _ hf ht => rw [hf, hc]
      | broken f hk => rfl
    rw [steps_call hrun]
    exact List.forall_mem_cons.2 ⟨Store.refused_of_failed hc hrun, ih r hc'⟩

/-- **After a call that fails to write its changes every call is refused.** -/
theorem pairwise_refused (b : Block α) (c : Connection) :
    (b.steps c).Pairwise fun s later => s.FlushFails → later.Refused := by
  induction b generalizing c with
  | done a => exact .nil
  | fail f => exact .nil
  | call k next ih =>
    obtain ⟨r, c', hrun, houtcome⟩ := k.exists_outcome c
    rw [steps_call hrun]
    refine .cons (fun later hlater hfails => ?_) (ih r c')
    cases houtcome with
    | refused f hk => exact absurd hfails hk
    | answered a hk _ hf ht => exact absurd hfails hk
    | broken f hk => exact (next _).refused_of_failed rfl later hlater

end Block

/-! ## Events that cannot be inserted -/

theorem exists_cell_of_bindAll {position : Nat} {values : List Value} {cells : List Cell}
    (h : bindAll position values = .ok cells) :
    ∀ v ∈ values, ∃ cell, Cell.ofValue v = .ok cell := by
  induction values generalizing position cells with
  | nil => exact List.forall_mem_nil _
  | cons v rest ih =>
    rw [bindAll] at h
    cases hv : Cell.ofValue v with
    | error f =>
      rw [hv] at h
      cases h
    | ok cell =>
      rw [hv] at h
      cases hrest : bindAll (position + 1) rest with
      | error f =>
        simp only [hrest] at h
        cases h
      | ok more => exact List.forall_mem_cons.2 ⟨⟨cell, hv⟩, ih hrest⟩

theorem completed_value {d : Draft} {column : Column} (h : (d.value column).isNull = false) :
    d.completed.value column = d.value column := by
  show (if (d.value column).isNull then column.default else d.value column) = d.value column
  rw [h]
  rfl

theorem mem_insertedValues {d : Draft} {column : Column} (h : (d.value column).isNull = false) :
    d.value column ∈ insertedValues d := by
  have hothers : column ≠ .id → d.value column ∈ (Column.all.filter (· ≠ .id)).map d.value :=
    fun hne => List.mem_map_of_mem (List.mem_filter.2 ⟨column.mem_all, decide_eq_true hne⟩)
  unfold insertedValues
  by_cases hid : column = .id
  · subst hid
    rw [h]
    exact List.mem_cons_self
  · cases (d.value .id).isNull with
    | true => exact hothers hid
    | false => exact List.mem_cons_of_mem _ (hothers hid)

section
variable {fields : List (String × Value)} {d : Draft} (hd : Draft.ofFields fields = .ok d)
  {c : Connection} (hc : c.failed = false)
include hd hc

theorem flushFails_create_iff :
    (Call.create fields).FlushFails c ↔
      ∃ f, insertEvent d.completed c.locked c.tables = .error f := by
  rw [Call.FlushFails, and_iff_right hc, flush?_create c hd]
  cases insertEvent d.completed c.locked c.tables <;> simp [Except.map]

/-- A new event is refused only while it is written. -/
theorem flushFails_create_iff_error :
    (Call.create fields).FlushFails c ↔
      ∃ f, ((Call.create fields).action.run c).1 = .error f := by
  rw [flushFails_create_iff hd hc, run_create_of_ok c hd]
  cases hinsert : insertEvent d.completed c.locked c.tables with
  | error f =>
    rw [run_bind_of_error (run_change_of_error hc hinsert)]
    exact ⟨fun _ => ⟨f, rfl⟩, fun _ => ⟨f, rfl⟩⟩
  | ok p =>
    rw [run_bind_of_ok (run_change_of_ok hc hinsert)]
    exact ⟨fun h => (by obtain ⟨f, h⟩ := h; cases h), fun h => (by obtain ⟨f, h⟩ := h; cases h)⟩

theorem flushFails_create_of_not_inserted (h : ∀ t' id,
      insertEvent d.completed c.locked c.tables ≠ .ok (t', id)) :
    (Call.create fields).FlushFails c := by
  rw [flushFails_create_iff hd hc]
  cases hinsert : insertEvent d.completed c.locked c.tables with
  | error f => exact ⟨f, rfl⟩
  | ok p => exact absurd hinsert (h p.1 p.2)

theorem flushFails_create_of_unfit {column : Column} {fault : Cell.BindFault}
    (h : Cell.ofValue (d.value column) = .error fault) : (Call.create fields).FlushFails c := by
  have hnull : (d.value column).isNull = false := by
    cases hv : d.value column with
    | null =>
      rw [hv] at h
      cases h
    | _ => rfl
  have hcompleted := completed_value hnull
  refine flushFails_create_of_not_inserted hd hc fun t' id hinsert => ?_
  obtain ⟨-, t, -, ⟨cells, hcells⟩, -⟩ := insertEvent_eq_ok_iff.1 hinsert
  obtain ⟨cell, hcell⟩ := exists_cell_of_bindAll hcells _
    (mem_insertedValues (hcompleted ▸ hnull))
  rw [hcompleted, h] at hcell
  cases hcell

theorem flushFails_create_of_duplicate {t : Tables} (ht : c.tables = some t) {e : Event}
    (he : e ∈ t.events) (hid : d.value .id = .int e.id) : (Call.create fields).FlushFails c := by
  by_cases hfits : Cell.fits e.id = true
  · refine flushFails_create_of_not_inserted hd hc fun t' id hinsert => ?_
    obtain ⟨-, t₁, ht₁, -, -, hstored, -, hfresh, -⟩ := insertEvent_eq_ok_iff.1 hinsert
    rw [ht] at ht₁
    cases ht₁
    have hcell : storedCell d.completed .id = .int e.id := by
      rw [storedCell, completed_value (by rw [hid]; rfl), hid, Cell.ofValue, if_pos hfits]
      rfl
    rw [storedId, hcell] at hstored
    cases hstored
    exact hfresh e he rfl
  · have hunfit : Cell.ofValue (d.value .id) = .error .tooWide := by
      rw [hid, Cell.ofValue, if_neg hfits]
    exact flushFails_create_of_unfit hd hc hunfit

end

/-! ## Sessions of their own -/

theorem withSession_eq {α : Type} {body : Action α} {c c' : Connection} {r : Except Failure α}
    (h : body.run c.sibling = (r, c')) :
    withSession body c = ((finish r c').1, { c with committed := (finish r c').2 }) := by
  rw [withSession, h]

/-- **A session is all or nothing.** It ends normally exactly if its block does and no call has
failed to write its changes; then the committed tables are what the calls that did not fail make of
them, one after the other. Otherwise they stay as they were. After a call that has failed to write
its changes every call is refused, and a block that ends normally nevertheless is not committed. An
event that is refused for a value that no cell holds, or because there is one with its id, is such a
call. -/
theorem withSession_block {α : Type} (b : Block α) (c : Connection) :
    (∃ result committed, withSession b.action c = (result, { c with committed }) ∧
      (∀ a, result = .ok a ↔
        (b.action.run c.sibling).1 = .ok a ∧ ∀ s ∈ b.steps c.sibling, ¬ s.FlushFails) ∧
      (∀ a, result = .ok a →
        committed = c.committed.map fun t => (b.steps c.sibling).foldl Step.apply t) ∧
      (∀ f, result = .error f → committed = c.committed) ∧
      ((∃ s ∈ b.steps c.sibling, s.FlushFails) → ∀ a, (b.action.run c.sibling).1 = .ok a →
        result = .error .pendingRollback)) ∧
    (b.steps c.sibling).Pairwise (fun s later => s.FlushFails → later.Refused) ∧
    ∀ fields d (c' : Connection), Draft.ofFields fields = .ok d → c'.failed = false →
      ((Call.create fields).FlushFails c' ↔
        ∃ f, ((Call.create fields).action.run c').1 = .error f) ∧
      (∀ column fault, Cell.ofValue (d.value column) = .error fault →
        (Call.create fields).FlushFails c') ∧
      ∀ t e, c'.tables = some t → e ∈ t.events → d.value .id = .int e.id →
        (Call.create fields).FlushFails c' := by
  refine ⟨?_, b.pairwise_refused c.sibling, fun fields d c' hd hc =>
    ⟨flushFails_create_iff_error hd hc, fun _ _ h => flushFails_create_of_unfit hd hc h,
      fun _ _ ht he hid => flushFails_create_of_duplicate hd hc ht he hid⟩⟩
  obtain ⟨r, c', hrun, hcommitted, hkept, hbroken⟩ := b.exists_run c.sibling
  rw [withSession_eq hrun, hrun]
  refine ⟨_, _, rfl, ?_⟩
  cases r with
  | error f =>
    rw [finish_error]
    refine ⟨fun a => ⟨fun h => (by cases h), fun h => (by cases h.1)⟩, fun a h => (by cases h),
      fun _ _ => hcommitted, fun _ a h => (by cases h)⟩
  | ok a =>
    by_cases hfails : ∃ s ∈ b.steps c.sibling, s.FlushFails
    · rw [finish_ok_of_failed (hbroken hfails)]
      refine ⟨fun a => ⟨fun h => (by cases h), fun h => ?_⟩, fun a h => (by cases h),
        fun _ _ => hcommitted, fun _ _ _ => rfl⟩
      obtain ⟨s, hs, hsf⟩ := hfails
      exact absurd hsf (h.2 s hs)
    · have hnone : ∀ s ∈ b.steps c.sibling, ¬ s.FlushFails := fun s hs hsf => hfails ⟨s, hs, hsf⟩
      obtain ⟨hfailed, htables⟩ := hkept hnone
      rw [finish_ok hfailed]
      exact ⟨fun a => ⟨fun h => ⟨h, hnone⟩, fun h => h.1⟩, fun _ _ => htables,
        fun f h => (by cases h), fun h => absurd h hfails⟩

/-- A block that creates an event twice with one id, whatever comes of it, and one more event. -/
def duplicated : Block Unit :=
  .call (.create [("id", .int 1)]) fun _ => .call (.create [("id", .int 1)]) fun _ =>
    .call (.create [("courseid", .int 5)]) fun _ => .done ()

/-- Nothing of the block with the duplicate is committed. -/
theorem withSession_duplicated :
    withSession duplicated.action (.opened (some .empty))
      = (.error .pendingRollback, .opened (some .empty)) := by
  obtain ⟨⟨result, committed, hrun, -, -, herror, hfails⟩, -, hcreate⟩ :=
    withSession_block duplicated (.opened (some .empty))
  have hsecond : ∃ s ∈ duplicated.steps (Connection.opened (some .empty)).sibling, s.FlushFails := by
    refine ⟨_, .tail _ (.head _), ?_⟩
    exact (hcreate [("id", .int 1)] _ _ rfl rfl).2.2 _ _ rfl (List.mem_singleton.2 rfl) rfl
  have hresult := hfails hsecond () rfl
  rw [hrun, hresult, herror _ hresult]

end Store

end EventCalendar
