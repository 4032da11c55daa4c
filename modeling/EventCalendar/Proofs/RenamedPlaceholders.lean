import EventCalendar.Proofs.CompiledStatement
import EventCalendar.Proofs.ConjoinedConditions

/-!
# Other names for placeholders

A renaming (`Renames`) gives the placeholders of conditions other names and keeps their values:

* `fragmentsFrom_renamedFrom`: the text of a condition changes in its names alone.
* `execute_renamed`: so does the statement, which comes to the same unless its names clash.
* `NamesFree`: no value is left over, and no placeholder has a generated name.
* `rawEvents_renamed`: **names do not matter to a listing** as long as they are free, and only then.
-/

set_option autoImplicit false

namespace EventCalendar.Listing

namespace Placeholder

/-! ## Renamed texts -/

/-- The text with other names for its placeholders, from the state of `fragmentsFrom`. -/
def renamedFrom (ρ : String → String) (blocked : Bool) (skip : Nat) : List Char → List Char
  | [] => []
  | c :: rest =>
    match skip with
    | skip + 1 => renamedFrom ρ true skip rest
    | 0 =>
      match if c = ':' ∧ blocked = false then name? rest else none with
      | some name => ':' :: ((ρ (String.ofList name)).toList ++ renamedFrom ρ true name.length rest)
      | none => c :: renamedFrom ρ (blocks c) 0 rest

def renamed (ρ : String → String) (s : String) : String :=
  String.ofList (renamedFrom ρ false 0 s.toList)

def renamedFragment (ρ : String → String) : Fragment → Fragment
  | .char c => .char c
  | .slot name => .slot (ρ name)

/-- The name of the placeholder that a character begins, if it does. -/
def slot? (blocked : Bool) (c : Char) (rest : List Char) : Option (List Char) :=
  if c = ':' ∧ blocked = false then name? rest else none

section
variable {blocked : Bool} {c : Char} {rest : List Char}

theorem eq_colon_of_slot? {name : List Char} (h : slot? blocked c rest = some name) :
    c = ':' ∧ blocked = false ∧ name? rest = some name := by
  unfold slot? at h
  split at h
  · rename_i hc
    exact ⟨hc.1, hc.2, h⟩
  · cases h

theorem fragmentsFrom_of_slot? {name : List Char} (h : slot? blocked c rest = some name) :
    fragmentsFrom blocked 0 (c :: rest)
      = .slot (String.ofList name) :: fragmentsFrom true name.length rest := by
  simp only [slot?] at h
  simp only [fragmentsFrom, h]

theorem fragmentsFrom_of_none (h : slot? blocked c rest = none) :
    fragmentsFrom blocked 0 (c :: rest)
      = if c = Text.backslash ∧ escapes rest = true then fragmentsFrom true 0 rest
        else .char c :: fragmentsFrom (blocks c) 0 rest := by
  simp only [slot?] at h
  simp only [fragmentsFrom, h]

theorem fragmentsFrom_skip (run after : List Char) :
    fragmentsFrom true run.length (run ++ after) = fragmentsFrom true 0 after := by
  induction run with
  | nil => rfl
  | cons c run ih => exact ih

variable {ρ : String → String}

theorem renamedFrom_of_slot? {name : List Char} (h : slot? blocked c rest = some name) :
    renamedFrom ρ blocked 0 (c :: rest)
      = ':' :: ((ρ (String.ofList name)).toList ++ renamedFrom ρ true name.length rest) := by
  simp only [slot?] at h
  simp only [renamedFrom, h]

theorem renamedFrom_of_none (h : slot? blocked c rest = none) :
    renamedFrom ρ blocked 0 (c :: rest) = c :: renamedFrom ρ (blocks c) 0 rest := by
  simp only [slot?] at h
  simp only [renamedFrom, h]

theorem renamedFrom_skip (run after : List Char) :
    renamedFrom ρ true run.length (run ++ after) = renamedFrom ρ true 0 after := by
  induction run with
  | nil => rfl
  | cons c run ih => exact ih

end

section
variable {ρ : String → String}

theorem head?_renamedFrom (blocked : Bool) (s : List Char) :
    (renamedFrom ρ blocked 0 s).head? = s.head? := by
  cases s with
  | nil => rfl
  | cons c rest =>
    cases h : slot? blocked c rest with
    | some name =>
      rw [renamedFrom_of_slot? h, (eq_colon_of_slot? h).1]
      rfl
    | none =>
      rw [renamedFrom_of_none h]
      rfl

theorem exists_renamedFrom_run (blocked : Bool) {run : List Char}
    (hrun : ∀ c ∈ run, Text.isWord c = true) (after : List Char) :
    ∃ blocked', renamedFrom ρ blocked 0 (run ++ after) = run ++ renamedFrom ρ blocked' 0 after := by
  induction run generalizing blocked with
  | nil => exact ⟨blocked, rfl⟩
  | cons c run ih =>
    obtain ⟨hc, hrun⟩ := List.forall_mem_cons.1 hrun
    obtain ⟨blocked', h⟩ := ih (blocks c) hrun
    have hnone : slot? blocked c (run ++ after) = none :=
      if_neg fun h => ne_colon_of_isWord hc h.1
    exact ⟨blocked', (renamedFrom_of_none hnone).trans (congrArg (c :: ·) h)⟩

theorem exists_run_renamedFrom (blocked : Bool) (s : List Char) : ∃ run after after',
    s = run ++ after ∧ renamedFrom ρ blocked 0 s = run ++ after' ∧
      (∀ c ∈ run, Text.isWord c = true) ∧ NoWord after ∧ NoWord after' ∧
        atColon after' = atColon after := by
  obtain ⟨run, after, rfl, hrun, hafter⟩ := exists_run s
  obtain ⟨blocked', h⟩ := exists_renamedFrom_run (ρ := ρ) blocked hrun after
  have hhead := head?_renamedFrom (ρ := ρ) blocked' after
  exact ⟨run, after, _, rfl, h, hrun, hafter, by rwa [NoWord, hhead], by rw [atColon, atColon, hhead]⟩

theorem name?_renamedFrom (blocked : Bool) (s : List Char) :
    name? (renamedFrom ρ blocked 0 s) = name? s := by
  obtain ⟨run, after, after', rfl, h, hrun, hafter, hafter', hcolon⟩ :=
    exists_run_renamedFrom (ρ := ρ) blocked s
  rw [h, name?_run hrun hafter, name?_run hrun hafter', hcolon]

theorem escapes_renamedFrom (s : List Char) : escapes (renamedFrom ρ true 0 s) = escapes s := by
  cases s with
  | nil => rfl
  | cons c rest =>
    have hnone : slot? true c rest = none := if_neg (by simp)
    rw [renamedFrom_of_none hnone]
    by_cases hc : c = ':'
    · obtain ⟨run, after, after', rfl, h, hrun, hafter, hafter', hcolon⟩ :=
        exists_run_renamedFrom (ρ := ρ) (blocks c) rest
      rw [h, hc]
      simp only [escapes, dropWhile_run hrun hafter, dropWhile_run hrun hafter', hcolon]
    · simp [escapes, hc]

/-- **The fragments of a renamed text** are those of the text, but for the names. -/
theorem fragmentsFrom_renamedFrom (blocked : Bool) (s : List Char)
    (hρ : ∀ name, .slot name ∈ fragmentsFrom blocked 0 s → IsIdentifier (ρ name).toList) :
    fragmentsFrom blocked 0 (renamedFrom ρ blocked 0 s)
      = (fragmentsFrom blocked 0 s).map (renamedFragment ρ) := by
  -- The name of a placeholder is skipped, so the induction is on the length of the text.
  induction hn : s.length using Nat.strongRecOn generalizing blocked s with
  | ind n ih =>
    cases s with
    | nil => rfl
    | cons c rest =>
      rw [List.length_cons] at hn
      cases h : slot? blocked c rest with
      | some name =>
        obtain ⟨rfl, rfl, hname⟩ := eq_colon_of_slot? h
        obtain ⟨hidentifier, after, rfl, hends⟩ := name?_eq_some_iff.1 hname
        rw [fragmentsFrom_of_slot? h, fragmentsFrom_skip] at hρ ⊢
        obtain ⟨hnew, hρ⟩ : IsIdentifier (ρ (String.ofList name)).toList ∧
            ∀ name, .slot name ∈ fragmentsFrom true 0 after → IsIdentifier (ρ name).toList :=
          ⟨hρ _ (by simp), fun name hname => hρ name (List.mem_cons_of_mem _ hname)⟩
        have hslot : slot? false ':' ((ρ (String.ofList name)).toList ++ renamedFrom ρ true 0 after)
            = some (ρ (String.ofList name)).toList := by
          rw [slot?, if_pos ⟨rfl, rfl⟩, name?_eq_some_iff]
          exact ⟨hnew, _, rfl, by rwa [Ends, head?_renamedFrom]⟩
        have hlt : after.length < n := by
          rw [List.length_append] at hn
          omega
        rw [renamedFrom_of_slot? h, renamedFrom_skip, fragmentsFrom_of_slot? hslot,
          fragmentsFrom_skip, ih _ hlt _ _ hρ rfl, String.ofList_toList]
        rfl
      | none =>
        have hslot : slot? blocked c (renamedFrom ρ (blocks c) 0 rest) = none := by
          rw [slot?, name?_renamedFrom]
          exact h
        rw [fragmentsFrom_of_none h] at hρ ⊢
        rw [renamedFrom_of_none h, fragmentsFrom_of_none hslot]
        by_cases hc : c = Text.backslash
        · have hblocks : blocks c = true := by rw [hc]; decide
          rw [hblocks] at hρ ⊢
          rw [escapes_renamedFrom]
          split
          · rename_i hescapes
            rw [if_pos hescapes] at hρ
            exact ih _ (by omega) _ _ hρ rfl
          · rename_i hescapes
            rw [if_neg hescapes] at hρ
            rw [ih _ (by omega) _ _ (fun name hname => hρ name (List.mem_cons_of_mem _ hname)) rfl]
            rfl
        · rw [if_neg fun h => hc h.1] at hρ
          rw [if_neg fun h => hc h.1, if_neg fun h => hc h.1,
            ih _ (by omega) _ _ (fun name hname => hρ name (List.mem_cons_of_mem _ hname)) rfl]
          rfl

theorem fragments_renamed {s : String}
    (hρ : ∀ name, Occurs name s → IsIdentifier (ρ name).toList) :
    fragments (renamed ρ s) = (fragments s).map (renamedFragment ρ) := by
  rw [fragments, renamed, String.toList_ofList]
  refine fragmentsFrom_renamedFrom _ _ fun name hname => hρ name (mem_names_iff.1 ?_)
  exact List.mem_filterMap.2 ⟨.slot name, hname, rfl⟩

theorem names_renamed {s : String} (hρ : ∀ name, Occurs name s → IsIdentifier (ρ name).toList) :
    names (renamed ρ s) = (names s).map ρ := by
  rw [names, fragments_renamed hρ, List.filterMap_map, names, List.map_filterMap]
  congr 1
  funext fragment
  cases fragment <;> rfl

theorem renamed_eq_empty_iff {s : String} : renamed ρ s = "" ↔ s = "" := by
  rw [← String.toList_eq_nil_iff, ← String.toList_eq_nil_iff, renamed, String.toList_ofList,
    ← List.head?_eq_none_iff, head?_renamedFrom, List.head?_eq_none_iff]

end

end Placeholder

open Placeholder (Occurs IsIdentifier)

/-! ## Renamed questions -/

/-- The same question with other names for its placeholders and values for them. -/
def Options.renamed (o : Options) (ρ : String → String) (params : NamedValues) : Options :=
  { o with conditions := o.conditions.map (Placeholder.renamed ρ), params }

/-- The new names are identifiers and have the values of the old ones. -/
structure Renames (ρ : String → String) (o : Options) (params : NamedValues) : Prop where
  identifier : ∀ c ∈ o.conditions, ∀ name, Occurs name c → IsIdentifier (ρ name).toList
  value : ∀ c ∈ o.conditions, ∀ name, Occurs name c →
    params.lookup (ρ name) = o.params.lookup name

theorem renames_of_injective {ρ : String → String} (hρ : Function.Injective ρ) {o : Options}
    (h : ∀ c ∈ o.conditions, ∀ name, Occurs name c → IsIdentifier (ρ name).toList) :
    Renames ρ o (o.params.map fun x => (ρ x.1, x.2)) where
  identifier := h
  value := by
    intro c _ name _
    induction o.params with
    | nil => rfl
    | cons x params ih =>
      have hkey : (ρ name == ρ x.1) = (name == x.1) := by
        rw [Bool.eq_iff_iff, beq_iff_eq, beq_iff_eq, hρ.eq_iff]
      rw [List.map_cons, List.lookup_cons, List.lookup_cons, hkey, ih]

def Item.renamed (ρ : String → String) : Item → Item
  | .char c => .char c
  | .fresh stem b => .fresh stem b
  | .named name b => .named (ρ name) b

@[simp] theorem Item.pieces_renamed (ρ : String → String) (x : Item) :
    (x.renamed ρ).pieces = x.pieces := by
  cases x <;> rfl

@[simp] theorem Item.binding?_renamed (ρ : String → String) (x : Item) :
    (x.renamed ρ).binding? = x.binding? := by
  cases x <;> rfl

section
variable {ρ : String → String} {o : Options} {params : NamedValues}

theorem conditions_renamed (f : Filters) : (Statement.mk f (o.renamed ρ params)).conditions
    = (Statement.mk f o).conditions.map (Placeholder.renamed ρ) := by
  rw [Statement.conditions, Statement.conditions, Options.renamed, List.filter_map]
  congr 1
  refine List.filter_congr fun c _ => ?_
  rw [Function.comp_apply, Bool.eq_iff_iff, bne_iff_ne, bne_iff_ne, ne_eq, ne_eq,
    Placeholder.renamed_eq_empty_iff]

variable (h : Renames ρ o params)
include h

theorem ofText_renamed {c : String} (hc : c ∈ o.conditions) :
    Item.ofText params (Placeholder.renamed ρ c) = (Item.ofText o.params c).map (Item.renamed ρ) := by
  rw [Item.ofText, Placeholder.fragments_renamed (h.identifier c hc), Item.ofText, List.map_map,
    List.map_map]
  refine List.map_congr_left fun x hx => ?_
  cases x with
  | char c => rfl
  | slot name =>
    have hname : Occurs name c :=
      Placeholder.mem_names_iff.1 (List.mem_filterMap.2 ⟨.slot name, hx, rfl⟩)
    simp only [Function.comp_apply, Placeholder.renamedFragment, Item.renamed, Binding.ofName,
      h.value c hc name hname]

/-- What is made of the items of the tail does not change if it does not tell names apart. -/
theorem flatMap_tail_renamed {α : Type} (g : Item → List α) (hg : ∀ x : Item, g (x.renamed ρ) = g x)
    (f : Filters) :
    (Statement.mk f (o.renamed ρ params)).tail.flatMap g = (Statement.mk f o).tail.flatMap g := by
  have hconditions : ((Statement.mk f (o.renamed ρ params)).conditions.flatMap fun c =>
      Item.plain " AND " ++ Item.ofText params c).flatMap g
      = ((Statement.mk f o).conditions.flatMap fun c =>
        Item.plain " AND " ++ Item.ofText o.params c).flatMap g := by
    rw [conditions_renamed, List.flatMap_map, List.flatMap_assoc, List.flatMap_assoc]
    refine List.flatMap_congr fun c hc => ?_
    rw [List.flatMap_append, List.flatMap_append, ofText_renamed h (List.mem_of_mem_filter hc),
      List.flatMap_map]
    simp only [hg]
  rw [Statement.tail, Statement.tail, List.flatMap_append, List.flatMap_append, List.flatMap_append,
    List.flatMap_append, List.flatMap_append, List.flatMap_append]
  exact congrArg (· ++ _ ++ _ ++ _) hconditions

theorem tokens?_renamed (f : Filters) :
    (Statement.mk f (o.renamed ρ params)).tokens? = (Statement.mk f o).tokens? := by
  rw [Statement.tokens?, flatMap_tail_renamed h _ (Item.pieces_renamed ρ)]
  rfl

theorem boundValues?_renamed (f : Filters) :
    boundValues? (Statement.mk f (o.renamed ρ params)).items
      = boundValues? (Statement.mk f o).items := by
  have hhead : (Statement.mk f (o.renamed ρ params)).head = (Statement.mk f o).head := rfl
  have houter : (Statement.mk f (o.renamed ρ params)).outer = (Statement.mk f o).outer := rfl
  have hpaging : (Statement.mk f (o.renamed ρ params)).paging = (Statement.mk f o).paging := rfl
  have htail := flatMap_tail_renamed h (fun x => x.binding?.toList)
    (fun x => by rw [Item.binding?_renamed]) f
  rw [boundValues?, boundValues?, List.filterMap_eq_flatMap_toList,
    List.filterMap_eq_flatMap_toList, Statement.items, Statement.items, hhead, houter, hpaging]
  simp only [List.flatMap_append, htail]

/-- **A renamed statement** comes to what the statement comes to, unless its names clash. -/
theorem execute_renamed (f : Filters) (tables : Option Tables) :
    (Statement.mk f (o.renamed ρ params)).execute tables
      = Statement.outcome (clash? (Statement.mk f (o.renamed ρ params)).items)
        (boundValues? (Statement.mk f o).items) tables (Statement.mk f o).tokens?
        (Statement.mk f o).selection? (Statement.mk f o).list := by
  have hselection : (Statement.mk f (o.renamed ρ params)).selection?
      = (Statement.mk f o).selection? := by
    rw [Statement.selection?, tokens?_renamed h, ← Statement.selection?]
  have hlist : (Statement.mk f (o.renamed ρ params)).list = (Statement.mk f o).list := rfl
  rw [Statement.execute, boundValues?_renamed h, tokens?_renamed h, hselection, hlist]

end

/-! ## Free names -/

/-- No name stands in the way: no value is left over, and no placeholder has a generated name. -/
structure NamesFree (f : Filters) (o : Options) : Prop where
  noneLeftOver : ∀ name, ¬ o.IsLeftOver name
  fresh : ∀ c ∈ o.conditions, ∀ name, Occurs name c →
    name ∉ generatedNames (Statement.mk f o).items

def Options.PlainOrder (o : Options) : Prop :=
  ∀ order, o.order = some order → ∀ name, ¬ Occurs name order

theorem Options.PlainOrder.statement {o : Options} (h : o.PlainOrder) (f : Filters) :
    (Statement.mk f o).PlainOrder := by
  rw [Statement.PlainOrder, Statement.order?]
  cases ho : o.order with
  | none => rfl
  | some order =>
    have hnames : Placeholder.names order = [] :=
      List.eq_nil_iff_forall_not_mem.2 fun name hname =>
        h order ho name (Placeholder.mem_names_iff.1 hname)
    rw [Option.filter_some]
    split
    · exact hnames
    · rfl

section
variable {f : Filters} {o : Options} (horder : o.PlainOrder)
include horder

/-- Names clash exactly if a placeholder has a generated name. -/
theorem clash?_eq_none_iff_fresh : clash? (Statement.mk f o).items = none ↔
    ∀ c ∈ o.conditions, ∀ name, Occurs name c →
      name ∉ generatedNames (Statement.mk f o).items := by
  rw [Statement.clash?_items_eq_none_iff (horder.statement f)]
  constructor
  · intro h c hc name hname
    refine h name (List.mem_flatMap.2 ⟨c, List.mem_filter.2 ⟨hc, ?_⟩, ?_⟩)
    · exact bne_iff_ne.2 hname.ne_empty
    · exact Placeholder.mem_names_iff.2 hname
  · intro h name hname
    obtain ⟨c, hc, hname⟩ := List.mem_flatMap.1 hname
    exact h c (List.mem_of_mem_filter hc) name (Placeholder.mem_names_iff.1 hname)

theorem namesFree_iff :
    NamesFree f o ↔ orphan? o = none ∧ clash? (Statement.mk f o).items = none := by
  rw [clash?_eq_none_iff_fresh horder, orphan?_eq_none_iff]
  exact ⟨fun h => ⟨h.noneLeftOver, h.fresh⟩, fun h => ⟨h.1, h.2⟩⟩

end

/-- Names that end in no digit are free, as long as no value is left over. -/
theorem namesFree_of_getLast? {o : Options} (horphan : orphan? o = none)
    (h : ∀ text ∈ o.conditions, ∀ name, Occurs name text →
      ∀ c, name.toList.getLast? = some c → c.isDigit = false) (f : Filters) : NamesFree f o := by
  refine ⟨orphan?_eq_none_iff.1 horphan, fun text htext name hname hgenerated => ?_⟩
  obtain ⟨c, hc⟩ : ∃ c, name.toList.getLast? = some c :=
    Option.ne_none_iff_exists'.1 fun hnone => hname.name_ne_nil (List.getLast?_eq_none_iff.1 hnone)
  have hdigit := isDigit_of_mem_generatedNames hgenerated hc
  rw [h text htext name hname c hc] at hdigit
  cases hdigit

theorem execute_renamed_of_free {ρ : String → String} {o : Options} {params : NamedValues}
    (h : Renames ρ o params) (horder : o.PlainOrder) {f : Filters} (hfree : NamesFree f o)
    (hfree' : NamesFree f (o.renamed ρ params)) :
    (Statement.mk f (o.renamed ρ params)).execute = (Statement.mk f o).execute := by
  have horder' : (o.renamed ρ params).PlainOrder := horder
  funext tables
  rw [execute_renamed h, ((namesFree_iff horder').1 hfree').2, Statement.execute,
    ((namesFree_iff horder).1 hfree).2]

end EventCalendar.Listing

namespace EventCalendar.Store

open Listing
open Placeholder (Occurs IsIdentifier)

section
variable {ρ : String → String} {o : Options} {params : NamedValues} (h : Renames ρ o params)
  (horder : o.PlainOrder)
include h horder

theorem run_rawEvents_renamed_of_clash {values : ByDimension Value} {f : Filters}
    (hf : Filters.coerce values = .ok f) (hactive : f.allNone = false)
    (hpage : checkPage o = .ok ()) (horphan : orphan? (o.renamed ρ params) = none)
    {text name : String} (htext : text ∈ o.conditions) (hname : Occurs name text)
    (hgenerated : ρ name ∈ generatedNames (Statement.mk f o).items) {c : Connection}
    (hc : c.failed = false) :
    (rawEvents values (o.renamed ρ params)).run c = (.error (.query .compile), c) := by
  have hoccurs : Occurs (ρ name) (Placeholder.renamed ρ text) := by
    rw [← Placeholder.mem_names_iff, Placeholder.names_renamed (h.identifier text htext)]
    exact List.mem_map_of_mem (Placeholder.mem_names_iff.2 hname)
  have hsame : generatedNames (Statement.mk f (o.renamed ρ params)).items
      = generatedNames (Statement.mk f o).items := generatedNames_congr rfl rfl rfl rfl
  have horder' : (o.renamed ρ params).PlainOrder := horder
  have hpage' : checkPage (o.renamed ρ params) = .ok () := hpage
  obtain ⟨clash, hclash⟩ : ∃ clash, clash? (Statement.mk f (o.renamed ρ params)).items
      = some clash := by
    refine Option.ne_none_iff_exists'.1 fun hnone => ?_
    refine (clash?_eq_none_iff_fresh horder').1 hnone _ (List.mem_map_of_mem htext) _ hoccurs ?_
    rwa [hsame]
  rw [rawEvents_eq_query hf hactive hpage' horphan, run_query _ hc, execute_renamed h, hclash]
  rfl

/-- **When the names of placeholders do not matter.** A listing is the same under other names for
its placeholders if the old and the new ones are free. Where it lists events, and so its own names
are free, the new ones have to be: a value that is left over, or a new name that is generated, is an
error. -/
theorem rawEvents_renamed (values : ByDimension Value) :
    ((∀ f, Filters.coerce values = .ok f → f.allNone = false →
        NamesFree f o ∧ NamesFree f (o.renamed ρ params)) →
      rawEvents values (o.renamed ρ params) = rawEvents values o) ∧
    ∀ f, Filters.coerce values = .ok f → f.allNone = false →
      ∀ (c : Connection) (events : List Event),
        (rawEvents values o).run c = (.ok events, c) →
        NamesFree f o ∧
        (NamesFree f (o.renamed ρ params) →
          (rawEvents values (o.renamed ρ params)).run c = (.ok events, c)) ∧
        ((∃ name, (o.renamed ρ params).IsLeftOver name) →
          ∃ name, (rawEvents values (o.renamed ρ params)).run c = (.error (.orphan name), c)) ∧
        ((∀ name, ¬ (o.renamed ρ params).IsLeftOver name) →
          ∀ text ∈ o.conditions, ∀ name, Occurs name text →
            ρ name ∈ generatedNames (Statement.mk f o).items →
              (rawEvents values (o.renamed ρ params)).run c = (.error (.query .compile), c)) := by
  refine ⟨fun hfree => rawEvents_eq_of_execute rfl fun f hf hactive => ?_,
    fun f hf hactive c events hrun => ?_⟩
  · obtain ⟨hfree, hfree'⟩ := hfree f hf hactive
    have horphan := (namesFree_iff horder).1 hfree
    have horphan' := (namesFree_iff (o := o.renamed ρ params) horder).1 hfree'
    exact ⟨horphan'.1.trans horphan.1.symm, fun _ => execute_renamed_of_free h horder hfree hfree'⟩
  · have hpage : checkPage o = .ok () := by
      cases hchecked : checkPage o with
      | ok _ => rfl
      | error e =>
        rw [rawEvents, plan_of_checkPage hchecked] at hrun
        cases hrun
    have hpage' : checkPage (o.renamed ρ params) = .ok () := hpage
    obtain ⟨hc, horphan, hexecute⟩ := (run_rawEvents_eq_ok_iff hf hactive hpage).1 hrun
    have hfree : NamesFree f o :=
      (namesFree_iff horder).2 ⟨horphan, (Statement.execute_eq_ok_iff.1 hexecute).1⟩
    refine ⟨hfree, fun hfree' => ?_, fun ⟨left, hleft⟩ => ?_,
      fun hnone text htext name hname hgen => ?_⟩
    · have horphan' := orphan?_eq_none_iff.2 hfree'.noneLeftOver
      refine (run_rawEvents_eq_ok_iff hf hactive hpage').2 ⟨hc, horphan', ?_⟩
      rw [execute_renamed_of_free h horder hfree hfree', hexecute]
    · obtain ⟨name, hname⟩ : ∃ name, orphan? (o.renamed ρ params) = some name :=
        Option.ne_none_iff_exists'.1 fun hnone => orphan?_eq_none_iff.1 hnone left hleft
      exact ⟨name, run_rawEvents_of_orphan hf hactive hpage' hname c⟩
    · exact run_rawEvents_renamed_of_clash h horder hf hactive hpage (orphan?_eq_none_iff.2 hnone)
        htext hname hgen hc

end

/-! ## Names of an id -/

def byName : Options :=
  { Options.default with conditions := ["e.id = :first"], params := [("first", .int 1)] }

theorem eq_first_of_occurs {text name : String} (htext : text ∈ byName.conditions)
    (hname : Occurs name text) : name = "first" := by
  have hnames : ∀ text ∈ byName.conditions, ∀ name ∈ Placeholder.names text, name = "first" := by
    decide
  exact hnames text htext name (Placeholder.mem_names_iff.2 hname)

theorem plainOrder_byName : byName.PlainOrder := fun order ho => by cases ho

theorem namesFree_byName (f : Filters) : NamesFree f byName := by
  refine namesFree_of_getLast? rfl (fun text htext name hname c hc => ?_) f
  rw [eq_first_of_occurs htext hname] at hc
  cases hc
  rfl

theorem renames_swap {name : String} (h : IsIdentifier name.toList) :
    Renames (Equiv.swap "first" name) byName [(name, .int 1)] := by
  have hrenames := renames_of_injective (Equiv.swap "first" name).injective (o := byName)
    fun text htext name' hname => by
      rw [eq_first_of_occurs htext hname, Equiv.swap_apply_left]
      exact h
  simpa [byName] using hrenames

/-- Names that end in no digit may change places. -/
theorem rawEvents_renamed_of_last :
    Renames (Equiv.swap "first" "last") byName [("last", .int 1)] ∧
      (byName.renamed (Equiv.swap "first" "last") [("last", .int 1)]).conditions
        = ["e.id = :last"] ∧
      rawEvents ⟨.null, .null, .int 5, .null⟩
          (byName.renamed (Equiv.swap "first" "last") [("last", .int 1)])
        = rawEvents ⟨.null, .null, .int 5, .null⟩ byName := by
  have hrenames : Renames (Equiv.swap "first" "last") byName [("last", .int 1)] :=
    renames_swap (Placeholder.isIdentifier_of_ascii (by decide) (by simp))
  refine ⟨hrenames, by decide, (rawEvents_renamed hrenames plainOrder_byName _).1 fun f _ _ => ?_⟩
  have hnames : ∀ text ∈ (byName.renamed (Equiv.swap "first" "last") [("last", .int 1)]).conditions,
      ∀ name ∈ Placeholder.names text, name = "last" := by decide
  refine ⟨namesFree_byName f, ?_⟩
  refine namesFree_of_getLast? (by decide) (fun text htext name hname c hc => ?_) f
  rw [hnames text htext name (Placeholder.mem_names_iff.2 hname)] at hc
  cases hc
  rfl

theorem isCondition_byName : IsCondition byName.params "e.id = :first"
    [[.compare .eq (.column (.event .id)) (.constant (.int 1))]] where
  text := ⟨[.word "e", .symbol .dot, .word "id", .symbol (.comparison .eq), .value (.int 1)], rfl,
    .factor ⟨12, rfl⟩, rfl⟩
  bound := by
    intro name hname
    rw [eq_first_of_occurs (List.mem_singleton.2 rfl) (Placeholder.mem_names_iff.1 hname)]
    exact Binding.bindable_int_iff.2 (by decide)
  onEvents := fun _ => rfl

/-- A name that is generated for a key cannot take the place of another one. -/
theorem rawEvents_renamed_of_key :
    Renames (Equiv.swap "first" "courseid_1") byName [("courseid_1", .int 1)] ∧
      (∃ events, (rawEvents ⟨.null, .null, .int 5, .null⟩ byName).run (.opened (some diary))
        = (.ok events, .opened (some diary))) ∧
      (rawEvents ⟨.null, .null, .int 5, .null⟩
        { Options.default with
          conditions := ["e.id = :courseid_1"], params := [("courseid_1", .int 1)] }).run
          (.opened (some diary)) = (.error (.query .compile), .opened (some diary)) := by
  have hrenames : Renames (Equiv.swap "first" "courseid_1") byName [("courseid_1", .int 1)] :=
    renames_swap (Placeholder.isIdentifier_of_ascii (by decide) (by simp))
  have hoccurs : Occurs "first" "e.id = :first" := Placeholder.mem_names_iff.1 (by decide)
  refine ⟨hrenames, ?_, ?_⟩
  · have hcondition : ∀ text ∈ byName.conditions, IsCondition byName.params text
        [[.compare .eq (.column (.event .id)) (.constant (.int 1))]] :=
      List.forall_mem_singleton.2 isCondition_byName
    obtain ⟨order, -, hrun⟩ := run_rawEvents_iff (o := byName) coerce_diary rfl rfl rfl rfl
      run_rawEvents_diary hcondition
    refine ⟨_, (hrun _).2 ⟨rfl, fun name hname => ?_, rfl⟩⟩
    obtain ⟨text, htext, hname⟩ := List.mem_flatMap.1 hname
    exact (namesFree_byName _).fresh text htext name (Placeholder.mem_names_iff.1 hname)
  · have hrenamed : { Options.default with
        conditions := ["e.id = :courseid_1"], params := [("courseid_1", .int 1)] }
          = byName.renamed (Equiv.swap "first" "courseid_1") [("courseid_1", .int 1)] := by
      have hconditions : byName.conditions.map
          (Placeholder.renamed (Equiv.swap "first" "courseid_1")) = ["e.id = :courseid_1"] := by
        decide
      rw [Options.renamed, hconditions]
      rfl
    rw [hrenamed]
    refine run_rawEvents_renamed_of_clash hrenames plainOrder_byName coerce_diary rfl rfl (by decide)
      (List.mem_singleton.2 rfl) hoccurs ?_ rfl
    rw [Equiv.swap_apply_left, mem_generatedNames_iff, stems_eq_map_fresh?,
      Statement.freshValues_items]
    exact ⟨"courseid", 1, by decide, by decide, by decide⟩

end EventCalendar.Store
