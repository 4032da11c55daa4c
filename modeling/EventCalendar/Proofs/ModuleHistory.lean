import EventCalendar.Proofs.AllOrNothing
import EventCalendar.Proofs.HiddenModules

/-!
# The history of the modules

The table of modules has one row for each module whose visibility was ever set, and what was set
last counts:

* `lastSet?`: the visibility that the calls of a session have last set for a name.
* `exists_upserted`: setting the visibility of a module changes its row, or adds it.
* `UpToDate`: the rows of the modules tell what was last set, one for each name.
* `Keeps`: what one call leaves of the stored rows.
* `modules_of_run`: **the modules after any calls**, and what listings make of them.
-/

set_option autoImplicit false

namespace EventCalendar

namespace Store

open Listing

/-! ## Calls -/

/-- The visibility that a call sets for a name. -/
def Call.sets? (name : String) : Call → Option Bool
  | .setModule (.text s) (.bool b) => if s = name then some b else none
  | _ => none

/-- The visibility that calls have last set for a name, if any of them has. -/
def lastSet? (name : String) (calls : List Call) : Option Bool :=
  calls.foldl (fun last k => (k.sets? name).or last) none

theorem lastSet?_append (name : String) (calls : List Call) (k : Call) :
    lastSet? name (calls ++ [k]) = (k.sets? name).or (lastSet? name calls) := by
  rw [lastSet?, List.foldl_append]
  rfl

/-- Modules are named by texts, and their visibility is set to truth values. -/
def Call.Plain : Call → Prop
  | .setModule name visible => (∃ s, name = .text s) ∧ ∃ b, visible = .bool b
  | _ => True

/-- Calls of a session that are answered, one after the other. -/
inductive Run (c : Connection) : List Call → Connection → Prop
  | nil : Run c [] c
  | snoc {calls : List Call} {c₁ c₂ : Connection} {k : Call} {a : Answer} :
    Run c calls c₁ → k.Plain → k.action.run c₁ = (.ok a, c₂) → Run c (calls ++ [k]) c₂

/-! ## Setting a module -/

/-- The rows of the modules tell what was last set, one for each name. -/
structure UpToDate (calls : List Call) (t : Tables) : Prop where
  names : (t.modules.map (·.name)).Nodup
  ids : (t.modules.map (·.id)).Nodup
  rows : ∀ m ∈ t.modules, ∃ (name : String) (b : Bool),
    m.name = .text name ∧ m.visible = .int b.toNat ∧ lastSet? name calls = some b
  exists_row : ∀ name b, lastSet? name calls = some b → ∃ m ∈ t.modules, m.name = .text name

theorem findModule?_text (t : Tables) (name : String) :
    findModule? (.text name) t = t.modules.find? fun m => m.name = .text name := by
  unfold findModule?
  congr 1
  funext m
  exact Expr.compareCells_eq_text _ _ (by decide)

theorem map_withVisible {α : Type} {g : Module → α}
    (hg : ∀ (m : Module) (v : Cell), g { m with visible := v } = g m) {id : Int} {v : Cell}
    (modules : List Module) :
    (modules.map fun m => if m.id = id then { m with visible := v } else m).map g
      = modules.map g := by
  rw [List.map_map]
  refine List.map_congr_left fun m _ => ?_
  rw [Function.comp_apply]
  split
  · exact hg m v
  · rfl

section
variable {t : Tables} (hnames : (t.modules.map (·.name)).Nodup)
  (hids : (t.modules.map (·.id)).Nodup) (name : String) (n : Int)

theorem withModule_of_new (hnew : ∀ m ∈ t.modules, m.name ≠ .text name) :
    (withModule (.text name) n t).modules
      = t.modules ++ [⟨nextId (t.modules.map (·.id)), .text name, .int n⟩] := by
  have hfind : t.modules.find? (fun m => m.name = .text name) = none := by
    rw [List.find?_eq_none]
    simpa using hnew
  rw [withModule, findModule?_text, hfind]
  rfl

include hids in
theorem withModule_of_found {found : Module}
    (hfind : t.modules.find? (fun m => m.name = .text name) = some found) :
    (withModule (.text name) n t).modules
      = t.modules.map fun m => if m.id = found.id then { m with visible := .int n } else m := by
  rw [withModule, findModule?_text, hfind]
  simp only
  split
  · rename_i hsame
    refine (List.map_id _).symm.trans (List.map_congr_left fun m hm => ?_)
    split
    · rename_i hid
      rw [List.inj_on_of_nodup_map hids hm (List.mem_of_find?_eq_some hfind) hid, ← hsame]
      rfl
    · rfl
  · rfl

include hnames hids in
/-- **Setting the visibility of a module** changes its row, or adds one under an id of its own. -/
theorem exists_upserted :
    ∃ x : Module, x.name = .text name ∧ x.visible = .int n ∧
      (∀ m ∈ t.modules, m.name = .text name → m.id = x.id) ∧
      (∀ m, m ∈ (withModule (.text name) n t).modules ↔
        m = x ∨ m ∈ t.modules ∧ m.name ≠ .text name) ∧
      ((withModule (.text name) n t).modules.map (·.name)).Nodup ∧
      ((withModule (.text name) n t).modules.map (·.id)).Nodup := by
  cases hfind : t.modules.find? fun m => m.name = .text name with
  | none =>
    have hnew : ∀ m ∈ t.modules, m.name ≠ .text name := by
      simpa [List.find?_eq_none] using hfind
    rw [withModule_of_new name n hnew]
    refine ⟨⟨nextId (t.modules.map (·.id)), .text name, .int n⟩, rfl, rfl,
      fun m hm h => absurd h (hnew m hm), fun m => ?_, nodup_map_snoc hnames hnew,
      nodup_map_snoc hids fun m hm => (lt_nextId (List.mem_map_of_mem hm)).ne⟩
    rw [List.mem_append, List.mem_singleton, or_comm]
    exact or_congr_right ⟨fun hm => ⟨hm, hnew m hm⟩, And.left⟩
  | some found =>
    have hmem := List.mem_of_find?_eq_some hfind
    have hname : found.name = .text name := by simpa using List.find?_some hfind
    have hunique : ∀ m ∈ t.modules, m.name = .text name → m = found := fun m hm h =>
      List.inj_on_of_nodup_map hnames hm hmem (h.trans hname.symm)
    rw [withModule_of_found hids name n hfind]
    refine ⟨{ found with visible := .int n }, hname, rfl, fun m hm h => by rw [hunique m hm h],
      fun m => ?_, ?_, ?_⟩
    · rw [List.mem_map]
      constructor
      · rintro ⟨y, hy, rfl⟩
        split
        · rename_i hid
          exact .inl (by rw [List.inj_on_of_nodup_map hids hy hmem hid])
        · rename_i hid
          exact .inr ⟨hy, fun h => hid (by rw [hunique y hy h])⟩
      · rintro (rfl | ⟨hm, hne⟩)
        · exact ⟨found, hmem, if_pos rfl⟩
        · refine ⟨m, hm, if_neg fun hid => hne ?_⟩
          rw [List.inj_on_of_nodup_map hids hm hmem hid, hname]
    · rwa [map_withVisible fun _ _ => rfl]
    · rwa [map_withVisible fun _ _ => rfl]

end

/-! ## What calls leave -/

/-- What one call leaves of the stored rows. -/
structure Keeps (k : Call) (t t' : Tables) : Prop where
  events : t'.events = t.events ∨ ∃ fields x, k = .create fields ∧ t'.events = t.events ++ [x]
  /-- The rows of other modules stay as they are. -/
  others : ∀ m : Module, (∀ name, m.name = .text name → k.sets? name = none) →
    (m ∈ t'.modules ↔ m ∈ t.modules)
  /-- Every module keeps its id and its name. -/
  kept : ∀ m ∈ t.modules, ∃ visible, { m with visible } ∈ t'.modules

section
variable {calls : List Call} {k : Call} {t t' : Tables} (ht : UpToDate calls t)
include ht

theorem UpToDate.of_sets?_eq_none (hnone : ∀ name, k.sets? name = none)
    (hmodules : t'.modules = t.modules) : UpToDate (calls ++ [k]) t' := by
  have hlast : ∀ name, lastSet? name (calls ++ [k]) = lastSet? name calls := by
    intro name
    rw [lastSet?_append, hnone, Option.none_or]
  constructor
  · rw [hmodules]
    exact ht.names
  · rw [hmodules]
    exact ht.ids
  · simp only [hmodules, hlast]
    exact ht.rows
  · simp only [hmodules, hlast]
    exact ht.exists_row

theorem UpToDate.withModule {name : String} {b : Bool} :
    UpToDate (calls ++ [.setModule (.text name) (.bool b)])
        (Store.withModule (.text name) b.toNat t) ∧
      Keeps (.setModule (.text name) (.bool b)) t (Store.withModule (.text name) b.toNat t) := by
  obtain ⟨x, hname, hvisible, hid, hmem, hnames, hids⟩ := exists_upserted ht.names ht.ids name b.toNat
  have hsets : (Call.setModule (.text name) (.bool b)).sets? name = some b := if_pos rfl
  have hother : ∀ other, other ≠ name →
      (Call.setModule (.text name) (.bool b)).sets? other = none := fun other h => if_neg h.symm
  refine ⟨⟨hnames, hids, fun m hm => ?_, fun other b' hlast => ?_⟩,
    ⟨.inl (withModule_events ..), fun m hm => ?_, fun m hm => ?_⟩⟩
  · rcases (hmem m).1 hm with rfl | ⟨hm, hne⟩
    · exact ⟨name, b, hname, hvisible, by rw [lastSet?_append, hsets, Option.some_or]⟩
    · obtain ⟨other, b', hother', hvisible', hlast⟩ := ht.rows m hm
      refine ⟨other, b', hother', hvisible', ?_⟩
      rw [lastSet?_append, hother other fun h => hne (by rw [hother', h]), Option.none_or, hlast]
  · by_cases h : other = name
    · exact ⟨x, (hmem x).2 (.inl rfl), by rw [h, hname]⟩
    · rw [lastSet?_append, hother other h, Option.none_or] at hlast
      obtain ⟨m, hm, hmname⟩ := ht.exists_row other b' hlast
      exact ⟨m, (hmem m).2 (.inr ⟨hm, by simpa [hmname] using h⟩), hmname⟩
  · have hne : m.name ≠ .text name := fun h => by
      have hnone := hm name h
      rw [hsets] at hnone
      cases hnone
    rw [hmem, and_iff_left hne, or_iff_right]
    rintro rfl
    exact hne hname
  · by_cases h : m.name = .text name
    · refine ⟨x.visible, (hmem _).2 (.inl ?_)⟩
      rw [hid m hm h, h, ← hname]
    · exact ⟨m.visible, (hmem m).2 (.inr ⟨hm, h⟩)⟩

/-- **One call** keeps the rows of the modules up to date, and all rows that it is not about. -/
theorem UpToDate.step (hk : k.Plain) (h : Effect t k t') :
    UpToDate (calls ++ [k]) t' ∧ Keeps k t t' := by
  cases h with
  | created x _ =>
    exact ⟨ht.of_sets?_eq_none (fun _ => rfl) rfl, .inr ⟨_, x, rfl, rfl⟩, fun _ _ => Iff.rfl,
      fun m hm => ⟨m.visible, hm⟩⟩
  | listed =>
    exact ⟨ht.of_sets?_eq_none (fun _ => rfl) rfl, .inl rfl, fun _ _ => Iff.rfl,
      fun m hm => ⟨m.visible, hm⟩⟩
  | moduleSet hcell hvisible =>
    obtain ⟨⟨name, rfl⟩, b, rfl⟩ := hk
    cases hcell
    cases hvisible
    exact ht.withModule

end

section
variable {before calls : List Call} {c c' : Connection} {t : Tables} (ht : c.tables = some t)
  (hrows : UpToDate before t)
include ht hrows

/-- **Calls keep the rows of the modules up to date**, the stored events, and the id and the name of
every module. -/
theorem Run.upToDate (h : Run c calls c') : ∃ t', c'.tables = some t' ∧ c'.failed = c.failed ∧
    UpToDate (before ++ calls) t' ∧ t.events <+: t'.events ∧
      ((∀ fields, .create fields ∉ calls) → t'.events = t.events) ∧
      ∀ m ∈ t.modules, ∃ visible, { m with visible } ∈ t'.modules := by
  induction h with
  | nil =>
    exact ⟨t, ht, rfl, by rwa [List.append_nil], List.prefix_refl _, fun _ => rfl,
      fun m hm => ⟨m.visible, hm⟩⟩
  | @snoc calls c₁ c₂ k a _ hk hrun ih =>
    obtain ⟨t₁, ht₁, hfailed, hrows₁, hprefix₁, hevents₁, hkept₁⟩ := ih
    obtain ⟨t₂, ht₂, heffect⟩ := Call.exists_effect hrun ht₁
    obtain ⟨hrows₂, hkeeps⟩ := hrows₁.step hk heffect
    refine ⟨t₂, ht₂, (Call.failed_of_answered hrun).trans hfailed,
      by rwa [List.append_assoc] at hrows₂, hprefix₁.trans ?_, fun hnone => ?_, fun m hm => ?_⟩
    · rcases hkeeps.events with h | ⟨-, x, -, h⟩
      · exact h ▸ List.prefix_refl _
      · exact h ▸ List.prefix_append _ _
    · rw [← hevents₁ fun fields hf => hnone fields (List.mem_append_left _ hf)]
      rcases hkeeps.events with h | ⟨fields, -, rfl, -⟩
      · exact h
      · exact absurd (List.mem_append_right _ List.mem_cons_self) (hnone fields)
    · obtain ⟨visible, hm₁⟩ := hkept₁ m hm
      obtain ⟨visible', hm₂⟩ := hkeeps.kept _ hm₁
      exact ⟨visible', hm₂⟩

end

theorem upToDate_empty : UpToDate [] .empty :=
  ⟨List.nodup_nil, List.nodup_nil, List.forall_mem_nil _, fun _ _ h => (by cases h)⟩

/-! ## Hidden events -/

/-- The module that the event names was last set to be hidden. -/
def Hides (calls : List Call) (e : Event) : Bool :=
  match e.get .modulename with
  | .text name => lastSet? name calls == some false
  | _ => false

namespace UpToDate

variable {calls : List Call} {t : Tables} (ht : UpToDate calls t)
include ht

theorem modulesSound : t.ModulesSound where
  typed := fun m hm => by
    obtain ⟨name, b, hname, hvisible, -⟩ := ht.rows m hm
    exact ⟨⟨name, hname⟩, ⟨_, hvisible⟩⟩
  names := ht.names

theorem moduleShown_iff (e : Event) : ModuleShown t e ↔ Hides calls e = false := by
  constructor
  · intro hshown
    unfold Hides
    split
    · rename_i name hname
      rw [beq_eq_false_iff_ne]
      intro hlast
      obtain ⟨m, hm, hmname⟩ := ht.exists_row name false hlast
      obtain ⟨name', b, hname', hvisible, hlast'⟩ := ht.rows m hm
      obtain rfl : name = name' := Cell.text.inj (hmname.symm.trans hname')
      cases hlast.symm.trans hlast'
      have hone := hshown m hm (hmname.trans hname.symm)
      rw [hvisible] at hone
      cases hone
    · rfl
  · intro hhides m hm hmname
    obtain ⟨name, b, hname, hvisible, hlast⟩ := ht.rows m hm
    rw [Hides, ← hmname, hname] at hhides
    replace hhides : (lastSet? name calls == some false) = false := hhides
    cases b with
    | true => exact hvisible
    | false =>
      rw [hlast] at hhides
      cases hhides

theorem length_filter_name_le (name : String) :
    (t.modules.filter fun m =>
      (Expr.compareCells .eq .text .none m.name (.text name)).holds).length ≤ 1 := by
  have hsame : (fun m : Module => (Expr.compareCells .eq .text .none m.name (.text name)).holds)
      = fun m => decide (m.name = .text name) :=
    funext fun m => Expr.compareCells_eq_text _ _ (by decide)
  have hnodup := ht.names
  rw [hsame, ← List.countP_eq_length_filter]
  have hcount := List.nodup_iff_count_le_one.1 hnodup (.text name)
  rw [List.count, List.countP_map] at hcount
  refine le_of_eq_of_le (List.countP_congr fun m _ => ?_) hcount
  simp

end UpToDate

theorem hides_restored {calls : List Call} {name : String} (h : lastSet? name calls ≠ some false)
    (e : Event) : Hides (calls ++ [.setModule (.text name) (.bool false),
      .setModule (.text name) (.bool true)]) e = Hides calls e := by
  have hlast : ∀ other, lastSet? other (calls ++ [.setModule (.text name) (.bool false),
      .setModule (.text name) (.bool true)]) = some false ↔ lastSet? other calls = some false := by
    intro other
    rw [List.append_cons, lastSet?_append, lastSet?_append]
    by_cases hother : name = other
    · simp [Call.sets?, hother, hother ▸ h]
    · simp [Call.sets?, hother]
  unfold Hides
  cases e.get .modulename with
  | text other => exact Bool.eq_iff_iff.2 (by simp only [beq_iff_eq, hlast])
  | _ => rfl

/-- **The modules after any calls** on empty tables. There is one row for each name whose visibility
was ever set, with what was set last. A call leaves the rows of events and of other modules as they
are, and no module ever changes its id. A listing has the events that it would have without modules,
less those of modules that were last hidden; a page is cut afterwards. So it comes back when a
module that is shown is hidden and shown again. -/
theorem modules_of_run {calls : List Call} {c : Connection}
    (h : Run (.opened (some .empty)) calls c) : ∃ t, c.tables = some t ∧ UpToDate calls t ∧
      (∀ name, (t.modules.filter fun m =>
        (Expr.compareCells .eq .text .none m.name (.text name)).holds).length ≤ 1) ∧
      (∀ e b, ∃ row, withModules t.modules e b = [row]) ∧
      (∀ k a c', k.Plain → k.action.run c = (.ok a, c') →
        ∃ t', c'.tables = some t' ∧ Keeps k t t') ∧
      (∀ more c', Run c more c' → ∃ t', c'.tables = some t' ∧ t.events <+: t'.events ∧
        ∀ m ∈ t.modules, ∃ visible, { m with visible } ∈ t'.modules) ∧
      ∀ values o, o.IgnoreModules →
        (∀ failure, (rawEvents values o).run c = (.error failure, c) ↔
          (rawEvents values o).run { c with pending := some t.withoutModules }
            = (.error failure, { c with pending := some t.withoutModules })) ∧
        (∀ events, (rawEvents values o).run c = (.ok events, c) → ∃ all,
          (rawEvents values (o.paged none none)).run { c with pending := some t.withoutModules }
            = (.ok all, { c with pending := some t.withoutModules }) ∧
          events = cut (o.offset.getD 0) (o.limit.filter (· != 0))
            (all.filter fun e => !Hides calls e)) ∧
        ∀ name, lastSet? name calls ≠ some false → ∀ c', Run c
          [.setModule (.text name) (.bool false), .setModule (.text name) (.bool true)] c' →
            ((rawEvents values o).run c').1 = ((rawEvents values o).run c).1 := by
  obtain ⟨t, ht, -, hrows, -⟩ := h.upToDate rfl upToDate_empty
  rw [List.nil_append] at hrows
  have hhides : ∀ e, decide (ModuleShown t e) = !Hides calls e := by
    intro e
    rw [Bool.eq_iff_iff, decide_eq_true_eq, hrows.moduleShown_iff, Bool.not_eq_true']
  have hlistings := fun values {o} (ho : Options.IgnoreModules o) =>
    run_rawEvents_shown ho values ht hrows.modulesSound
      (d := { c with pending := some t.withoutModules }) rfl rfl
  refine ⟨t, ht, hrows, hrows.length_filter_name_le,
    fun e b => ⟨_, withModules_eq hrows.modulesSound e b⟩, fun k a c' hk hrun => ?_,
    fun more c' hmore => ?_, fun values o ho => ⟨(hlistings values ho).1, fun events hevents => ?_,
      fun name hname c' hmore => ?_⟩⟩
  · obtain ⟨t', ht', heffect⟩ := Call.exists_effect hrun ht
    exact ⟨t', ht', (hrows.step hk heffect).2⟩
  · obtain ⟨t', ht', -, -, hprefix, -, hkept⟩ := hmore.upToDate ht hrows
    exact ⟨t', ht', hprefix, hkept⟩
  · obtain ⟨all, hall, hcut⟩ := (hlistings values ho).2 events hevents
    simp only [hhides] at hcut
    exact ⟨all, hall, hcut⟩
  · obtain ⟨t', ht', hfailed, hrows', -, hevents, -⟩ := hmore.upToDate ht hrows
    refine run_rawEvents_of_shown ho values ht hrows.modulesSound ht' hrows'.modulesSound hfailed
      (hevents fun fields hf => by simp at hf) fun e => ?_
    rw [hrows.moduleShown_iff, hrows'.moduleShown_iff, hides_restored hname]

/-! ## A quiz -/

def quizFields : List (String × Value) :=
  [("courseid", .int 5), ("modulename", .text "quiz"), ("timestart", .int 1)]

def lessonFields : List (String × Value) := [("courseid", .int 5), ("timestart", .int 2)]

def storedAs (id : Int) (fields : List (String × Value)) : Event :=
  ⟨id, storedCell ((Draft.ofFields fields).toOption.getD .blank).completed⟩

def quizSession (modules : List Module) : Connection :=
  { Connection.opened (some .empty) with
    pending := some ⟨[storedAs 1 quizFields, storedAs 2 lessonFields], modules⟩ }

def setQuiz (visible : Bool) : Call := .setModule (.text "quiz") (.bool visible)

theorem run_quizSession :
    Run (.opened (some .empty)) [.create quizFields, .create lessonFields] (quizSession []) := by
  have hplain : ∀ fields, (Call.create fields).Plain := fun _ => trivial
  exact .snoc (.snoc .nil (hplain quizFields) rfl) (hplain lessonFields) rfl

theorem run_setQuiz (modules : List Module)
    (h : modules = [] ∨ modules = [⟨1, .text "quiz", .int 0⟩]) :
    Run (quizSession modules) [setQuiz false, setQuiz true]
      (quizSession [⟨1, .text "quiz", .int 1⟩]) := by
  have hplain : ∀ b, (setQuiz b).Plain := fun b => ⟨⟨_, rfl⟩, b, rfl⟩
  rcases h with rfl | rfl
  · exact .snoc (.snoc .nil (hplain false) rfl) (hplain true) rfl
  · exact .snoc (.snoc .nil (hplain false) rfl) (hplain true) rfl

theorem run_course (modules : List Module)
    (hsound : Tables.Sound ⟨[storedAs 1 quizFields, storedAs 2 lessonFields], modules⟩) :
    ∃ events, (rawEvents ⟨.null, .null, .int 5, .null⟩ .default).run (quizSession modules)
        = (.ok events, quizSession modules) ∧
      events.Pairwise (fun a b => (a.compareToward false .timestart b).isLE) ∧
      ∀ e, e ∈ events ↔ Listed ⟨.nobody, .nobody, .ofIds [5], .nobody⟩ false
        ⟨[storedAs 1 quizFields, storedAs 2 lessonFields], modules⟩ e :=
  ⟨_, run_rawEvents_of_fits coerce_diary (by decide) rfl rfl hsound false,
    pairwise_sortedEvents hsound _ _ _ _ _, fun _ => mem_sortedEvents_iff hsound _ _ _ _⟩

/-- A quiz that is hidden and shown again is listed as before. -/
theorem modules_of_run_quiz : ∃ c events,
    Run (.opened (some .empty)) [.create quizFields, .create lessonFields] (quizSession []) ∧
      Run (quizSession []) [setQuiz false, setQuiz true] c ∧
      (rawEvents ⟨.null, .null, .int 5, .null⟩ .default).run (quizSession [])
        = (.ok events, quizSession []) ∧
      storedAs 1 quizFields ∈ events ∧
      ((rawEvents ⟨.null, .null, .int 5, .null⟩ .default).run c).1 = .ok events := by
  obtain ⟨t, -, -, -, -, -, -, hlistings⟩ := modules_of_run run_quizSession
  obtain ⟨events, hrun, -, hmem⟩ := run_course [] (by decide)
  refine ⟨_, events, run_quizSession, run_setQuiz [] (.inl rfl), hrun,
    (hmem _).2 ⟨by simp, by decide, by decide, by decide⟩, ?_⟩
  rw [(hlistings ⟨.null, .null, .int 5, .null⟩ .default (ignoreModules_default none none false)).2.2
    "quiz" (by decide) _ (run_setQuiz [] (.inl rfl)), hrun]

theorem run_first_of_course (modules : List Module)
    (hsound : Tables.Sound ⟨[storedAs 1 quizFields, storedAs 2 lessonFields], modules⟩)
    {events : List Event}
    (h : (rawEvents ⟨.null, .null, .int 5, .null⟩ .default).run (quizSession modules)
      = (.ok events, quizSession modules)) :
    (rawEvents ⟨.null, .null, .int 5, .null⟩ (Options.default.paged none (some 1))).run
      (quizSession modules) = (.ok (events.take 1), quizSession modules) := by
  have hpaginated := paginated_window coerce_diary (o := .default) rfl (.inl rfl)
    (c := quizSession modules) rfl hsound Window.unbound_open false
  rw [show eventsInWindow ⟨.null, .null, .int 5, .null⟩ (.between none none false)
    = rawEvents ⟨.null, .null, .int 5, .null⟩ from funext (eventsInWindow_open _)] at hpaginated
  exact (hpaginated events h).1.first none (.inl rfl) 1 (Nat.le_refl 1) (by decide)

/-- With the quiz hidden the first event is the lesson, which is not the first one without modules.
And if the quiz was hidden before, it is not when it is hidden and shown again. -/
theorem modules_of_run_hidden_quiz : ∃ c c' first firstWithout listed restored,
    Run (.opened (some .empty))
        [.create quizFields, .create lessonFields, setQuiz false] c ∧
      (rawEvents ⟨.null, .null, .int 5, .null⟩ (Options.default.paged none (some 1))).run c
        = (.ok first, c) ∧
      (rawEvents ⟨.null, .null, .int 5, .null⟩ (Options.default.paged none (some 1))).run
          (quizSession []) = (.ok firstWithout, quizSession []) ∧
      storedAs 2 lessonFields ∈ first ∧ storedAs 2 lessonFields ∉ firstWithout ∧
      Run c [setQuiz false, setQuiz true] c' ∧
      (rawEvents ⟨.null, .null, .int 5, .null⟩ .default).run c = (.ok listed, c) ∧
      (rawEvents ⟨.null, .null, .int 5, .null⟩ .default).run c' = (.ok restored, c') ∧
      storedAs 1 quizFields ∉ listed ∧ storedAs 1 quizFields ∈ restored := by
  have hplain : (setQuiz false).Plain := ⟨⟨_, rfl⟩, _, rfl⟩
  have hquiz : storedAs 1 quizFields ≠ storedAs 2 lessonFields := fun h =>
    absurd (congrArg Event.id h) (by decide)
  have hhidden : Tables.Sound ⟨[storedAs 1 quizFields, storedAs 2 lessonFields],
    [⟨1, .text "quiz", .int 0⟩]⟩ := by decide
  obtain ⟨listed, hlisted, -, hmem⟩ := run_course _ hhidden
  obtain ⟨restored, hrestored, -, hmem'⟩ := run_course [⟨1, .text "quiz", .int 1⟩] (by decide)
  obtain ⟨without, hwithout, hordered, hmem''⟩ := run_course [] (by decide)
  have hnotListed : storedAs 1 quizFields ∉ listed := fun h =>
    absurd ((hmem _).1 h).moduleShown (by decide)
  refine ⟨quizSession [⟨1, .text "quiz", .int 0⟩], quizSession [⟨1, .text "quiz", .int 1⟩], _, _,
    listed, restored, .snoc run_quizSession hplain rfl, run_first_of_course _ hhidden hlisted,
    run_first_of_course [] (by decide) hwithout, ?_, ?_, run_setQuiz _ (.inr rfl), hlisted, hrestored,
    hnotListed, (hmem' _).2 ⟨by simp, by decide, by decide, by decide⟩⟩
  · have hlesson : storedAs 2 lessonFields ∈ listed :=
      (hmem _).2 ⟨by simp, by decide, by decide, by decide⟩
    cases listed with
    | nil => cases hlesson
    | cons e listed =>
      have hstored := ((hmem e).1 List.mem_cons_self).stored
      rcases List.mem_cons.1 hstored with rfl | hstored
      · exact absurd List.mem_cons_self hnotListed
      · rw [List.mem_singleton.1 hstored]
        exact List.mem_cons_self
  · intro h
    have hfirst : storedAs 1 quizFields ∈ without :=
      (hmem'' _).2 ⟨by simp, by decide, by decide, by decide⟩
    cases without with
    | nil => cases h
    | cons e without =>
      obtain rfl : storedAs 2 lessonFields = e := List.mem_singleton.1 h
      rcases List.mem_cons.1 hfirst with hfirst | hfirst
      · exact hquiz hfirst
      · exact absurd ((List.pairwise_cons.1 hordered).1 _ hfirst) (by decide)

end Store

end EventCalendar
