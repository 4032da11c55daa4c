import EventCalendar.Proofs.PlaceholderScan
import EventCalendar.Proofs.StatementRuns
import EventCalendar.Proofs.WindowParameters

/-!
# What values a compiled statement depends on

A statement that is built and then compiled (`compiled`) has a text and one binding for each of its
names. Of the values that the caller gives by name:

* `orphan?_eq_none_iff`: those of names that are cut short are errors.
* `generatedParameters_congr`: none counts for the parameters with generated names.
* `lookup_bindings_of_occurs`: a placeholder is bound to the value given for its name.
* `compiled_valued`: **a statement depends on the values of its placeholders**, and on which names
  that are cut short have a value.
-/

set_option autoImplicit false

namespace EventCalendar.Listing

open Placeholder (Occurs IsCutShort)

/-- Why there is no text of a statement. -/
inductive CompileFault
  | plan (fault : PlanFault)
  | clash (c : ParameterClash)

/-- The text of items and what their names are bound to. -/
def written (items : List Item) : Except CompileFault (Option Rendered) :=
  match render items with
  | .error c => .error (.clash c)
  | .ok r => .ok (some r)

/-- The text and the bindings of the statement for filters. There is no statement if no dimension is
active. -/
def compiled (f : Filters) (o : Options) : Except CompileFault (Option Rendered) :=
  match build f o with
  | .error fault => .error (.plan fault)
  | .ok none => .ok none
  | .ok (some s) => written s.items

/-! ## Orphans -/

theorem orphanName?_eq_none_iff {params : NamedValues} {c : String} :
    Placeholder.orphanName? params c = none ↔
      ∀ name, IsCutShort name c → ¬ Occurs name c → params.lookup name = none := by
  rw [Placeholder.orphanName?, List.find?_eq_none]
  constructor
  · intro h name hcut hoccurs
    have hname := h name (Placeholder.mem_lookedUp_iff.2 (.inr hcut))
    have hnot : (Placeholder.names c).contains name = false := by
      simpa [Placeholder.mem_names_iff] using hoccurs
    rw [hnot, Bool.not_false, Bool.and_true, Bool.not_eq_true] at hname
    exact Option.isSome_eq_false_iff.1 hname |> Option.isNone_iff_eq_none.1
  · intro h name hname
    rcases Placeholder.mem_lookedUp_iff.1 hname with hoccurs | hcut
    · simp [Placeholder.mem_names_iff, hoccurs]
    · by_cases hoccurs : Occurs name c
      · simp [Placeholder.mem_names_iff, hoccurs]
      · simp [h name hcut hoccurs]

/-- A value is given for the name, which is cut short in a condition and no placeholder of it. -/
def Options.IsLeftOver (o : Options) (name : String) : Prop :=
  (o.params.lookup name).isSome = true ∧ ∃ c ∈ o.conditions, IsCutShort name c ∧ ¬ Occurs name c

/-- **No value is left over** exactly if none is given for a name that is cut short in a condition
and no placeholder of it. -/
theorem orphan?_eq_none_iff {o : Options} : orphan? o = none ↔ ∀ name, ¬ o.IsLeftOver name := by
  simp only [orphan?, List.findSome?_eq_none_iff, orphanName?_eq_none_iff]
  constructor
  · rintro h name ⟨hvalue, c, hc, hcut, hoccurs⟩
    rw [h c hc name hcut hoccurs] at hvalue
    cases hvalue
  · intro h c hc name hcut hoccurs
    exact Option.not_isSome_iff_eq_none.1 fun hvalue => h name ⟨hvalue, c, hc, hcut, hoccurs⟩

/-- Which value is left over depends on the presence of values only. -/
theorem orphan?_valued {o : Options} {params : NamedValues}
    (h : ∀ c ∈ o.conditions, ∀ name, IsCutShort name c → ¬ Occurs name c →
      (params.lookup name).isSome = (o.params.lookup name).isSome) :
    orphan? (o.valued params) = orphan? o := by
  refine findSome?_congr fun c hc => List.find?_congr fun name hname => ?_
  by_cases hoccurs : Occurs name c
  · simp [Placeholder.mem_names_iff, hoccurs]
  · have hcut := (Placeholder.mem_lookedUp_iff.1 hname).resolve_left hoccurs
    exact congrArg (· && _) (h c hc name hcut hoccurs)

/-! ## Generated parameters -/

/-- The parameters of items that have generated names. -/
def generatedParameters (items : List Item) : List Parameter :=
  (parametersOf items).filter (·.isGenerated)

/-- The stem and the value of a fresh parameter. -/
def Item.fresh? : Item → Option (String × Binding)
  | .fresh stem b => some (stem, b)
  | _ => none

def freshItems (values : List (String × Binding)) : List Item := values.map fun x => .fresh x.1 x.2

theorem parametersAfter_filter_isGenerated (used : List String) (items : List Item) :
    (parametersAfter used items).filter (·.isGenerated)
      = parametersAfter used (freshItems (items.filterMap Item.fresh?)) := by
  induction items generalizing used with
  | nil => rfl
  | cons x items ih =>
    cases x with
    | char c => exact ih used
    | named name b => exact ih used
    | fresh stem b => exact congrArg (_ :: ·) (ih (stem :: used))

theorem stems_eq_map_fresh? (items : List Item) :
    stems items = (items.filterMap Item.fresh?).map (·.1) := by
  induction items with
  | nil => rfl
  | cons x items ih => cases x <;> simp [stems, Item.fresh?, ih, List.filterMap_cons]

def KeyTest.key : KeyTest → Column
  | .isZero key | .nonzero key | .among key _ => key

def keyValues (f : Filters) : List (String × Binding) :=
  (predicates f).flatMap fun p => p.map fun k => (k.key.label, k.binding)

def visibleValues (showHidden : Bool) : List (String × Binding) :=
  if showHidden then [] else [("visible", .scalar (.int 1))]

def pageValues (s : Statement) : List (String × Binding) :=
  if s.isPaged then
    [("param", .scalar (.int (s.limit?.getD (-1)))), ("param", .scalar (.int s.offset))]
  else []

theorem filterMap_fresh?_plain (s : String) : (Item.plain s).filterMap Item.fresh? = [] :=
  filterMap_plain (fun _ => rfl) s

theorem filterMap_fresh?_equals (table : String) (c : Column) (n : Int) :
    (Item.equals table c n).filterMap Item.fresh? = [(c.label, .scalar (.int n))] := by
  simp [Item.equals, Item.column, Item.ofColumn, filterMap_fresh?_plain, Item.fresh?]

theorem filterMap_fresh?_predicates (table : String) (enclosed : Bool) (f : Filters) :
    (disjunctionItems table enclosed (predicates f)).filterMap Item.fresh? = keyValues f := by
  refine filterMap_predicates (fun _ => rfl) (fun k => ?_) enclosed f
  cases k <;> simp [KeyTest.items, filterMap_fresh?_equals, Item.column, Item.ofColumn,
    filterMap_fresh?_plain, Item.fresh?, KeyTest.key, KeyTest.binding]

theorem filterMap_fresh?_visibility (table : String) (showHidden : Bool) :
    (if showHidden then [] else Item.plain " AND " ++ Item.equals table .visible 1).filterMap
      Item.fresh? = visibleValues showHidden := by
  unfold visibleValues
  split <;> simp [filterMap_fresh?_plain, filterMap_fresh?_equals, Column.label]

/-- **The fresh values of a statement**: those of its key tests, once for the best priorities and
once for the events, those of the tests of visibility, and those of the page. Raw texts have none.
-/
theorem Statement.freshValues_items (s : Statement) :
    s.items.filterMap Item.fresh? = keyValues s.filters ++ visibleValues s.options.showHidden
      ++ [("visible", .scalar (.int 1))] ++ keyValues s.filters
      ++ visibleValues s.options.showHidden ++ pageValues s := by
  have htext : ∀ (params : NamedValues) (text : String),
      (Item.ofText params text).filterMap Item.fresh? = [] := by
    intro params text
    rw [List.filterMap_eq_nil_iff]
    intro x hx
    obtain ⟨fragment, -, rfl⟩ := List.mem_map.1 hx
    cases fragment <;> rfl
  have hconditions : (s.conditions.flatMap fun c =>
      Item.plain " AND " ++ Item.ofText s.options.params c).filterMap Item.fresh? = [] := by
    rw [List.filterMap_flatMap]
    simp [filterMap_fresh?_plain, htext]
  have horder : s.orderItems.filterMap Item.fresh? = [] := by
    unfold orderItems
    cases s.order? with
    | none => exact filterMap_fresh?_plain _
    | some order => exact htext [] order
  have hpaging : s.paging.filterMap Item.fresh? = pageValues s := by
    unfold paging pageValues
    split <;> simp [filterMap_fresh?_plain, Item.fresh?]
  simp only [items, head, outer, tail, List.filterMap_append, filterMap_fresh?_plain,
    filterMap_fresh?_predicates, filterMap_fresh?_equals, filterMap_fresh?_visibility, hconditions,
    horder, hpaging, Column.label, List.nil_append, List.append_assoc]

/-- **Raw texts have no part in generated parameters**, nor have the values that they name. -/
theorem generatedParameters_congr {s s' : Statement} (hfilters : s.filters = s'.filters)
    (hhidden : s.options.showHidden = s'.options.showHidden)
    (hoffset : s.options.offset = s'.options.offset) (hlimit : s.options.limit = s'.options.limit) :
    generatedParameters s.items = generatedParameters s'.items := by
  have hparameters : ∀ items, generatedParameters items
      = parametersAfter [] (freshItems (items.filterMap Item.fresh?)) :=
    parametersAfter_filter_isGenerated []
  have hpage : pageValues s = pageValues s' := by
    have hoffset' : s.offset = s'.offset := congrArg (·.getD 0) hoffset
    have hlimit' : s.limit? = s'.limit? := congrArg (Option.filter _) hlimit
    rw [pageValues, pageValues, Statement.isPaged, Statement.isPaged, hoffset', hlimit']
  rw [hparameters, hparameters, Statement.freshValues_items, Statement.freshValues_items, hfilters,
    hhidden, hpage]

theorem generatedNames_congr {s s' : Statement} (hfilters : s.filters = s'.filters)
    (hhidden : s.options.showHidden = s'.options.showHidden)
    (hoffset : s.options.offset = s'.options.offset) (hlimit : s.options.limit = s'.options.limit) :
    generatedNames s.items = generatedNames s'.items :=
  congrArg (·.map (·.name)) (generatedParameters_congr hfilters hhidden hoffset hlimit)

/-! ## Bindings -/

theorem lookup_bindingsOf {ps : List Parameter} {name : String} {b : Binding}
    (hname : ∃ p ∈ ps, p.name = name) (h : ∀ p ∈ ps, p.name = name → p.binding = b) :
    (bindingsOf ps).lookup name = some b := by
  induction ps with
  | nil =>
    obtain ⟨p, hp, -⟩ := hname
    cases hp
  | cons p ps ih =>
    obtain ⟨hp, h⟩ := List.forall_mem_cons.1 h
    simp only [bindingsOf]
    by_cases hlater : ∃ q ∈ ps, q.name = name
    · have hrest := ih hlater h
      split
      · exact hrest
      · rename_i hnone
        have hne : (name == p.name) = false := by
          refine beq_eq_false_iff_ne.2 fun heq => hnone ?_
          rw [← heq, hrest]
          rfl
        rw [List.lookup_cons, hne]
        exact hrest
    · have hpname : p.name = name := by
        obtain ⟨q, hq, hqname⟩ := hname
        rcases List.mem_cons.1 hq with rfl | hq
        · exact hqname
        · exact absurd ⟨q, hq, hqname⟩ hlater
      have hnone : (bindingsOf ps).lookup p.name = none := by
        rw [List.lookup_eq_none_iff]
        intro x hx
        have hmem := mem_names_bindingsOf.1 (List.mem_map_of_mem (f := (·.1)) hx)
        obtain ⟨q, hq, hqname⟩ := List.mem_map.1 hmem
        have hne : p.name ≠ x.1 := fun heq => hlater ⟨q, hq, by rw [hqname, ← heq, hpname]⟩
        simpa using hne
      rw [hnone, if_neg (by simp), hpname, List.lookup_cons, beq_self_eq_true, ← hp hpname]

section
variable {items : List Item} (h : clash? items = none)
include h

theorem pairwise_parametersOf : (parametersOf items).Pairwise Parameter.Compatible := by
  rw [clash?, clashAfter?_eq_none_iff .nil] at h
  exact h.1

theorem eq_of_isGenerated {p q : Parameter} (hp : p ∈ parametersOf items)
    (hq : q ∈ parametersOf items) (hname : p.name = q.name) (hgenerated : q.isGenerated = true) :
    p = q := by
  by_contra hne
  have hsymm : Std.Symm Parameter.Compatible :=
    ⟨fun _ _ h hname => ⟨(h hname.symm).2.1, (h hname.symm).1, (h hname.symm).2.2.symm⟩⟩
  have hcompatible := (pairwise_parametersOf h).forall hp hq hne hname
  rw [hcompatible.2.1] at hgenerated
  cases hgenerated

theorem lookup_bindings_of_isGenerated {p : Parameter} (hp : p ∈ parametersOf items)
    (hgenerated : p.isGenerated = true) : (bindings items).lookup p.name = some p.binding :=
  lookup_bindingsOf ⟨p, hp, rfl⟩ fun _ hq hname =>
    congrArg Parameter.binding (eq_of_isGenerated h hq hp hname hgenerated)

end

/-- Where no names clash, a placeholder of a condition that the order does not name is bound to the
value that is given for its name. -/
theorem lookup_bindings_of_occurs {s : Statement} (h : clash? s.items = none) {c name : String}
    (hc : c ∈ s.options.conditions) (hname : Occurs name c)
    (horder : ∀ order, s.order? = some order → ¬ Occurs name order) :
    (bindings s.items).lookup name = some (.ofName s.options.params name) := by
  -- All its parameters are the caller's: one of them is, and no names clash.
  have hnamed : Item.named name (.ofName s.options.params name) ∈ s.items := by
    refine Statement.named_mem_items_iff.2 (List.mem_append_left _ (List.mem_flatMap.2 ⟨c, ?_, ?_⟩))
    · exact List.mem_filter.2 ⟨hc, bne_iff_ne.2 hname.ne_empty⟩
    · exact List.mem_map_of_mem (Placeholder.mem_names_iff.2 hname)
  have hparameter : ⟨name, false, .ofName s.options.params name⟩ ∈ parametersOf s.items :=
    (mem_parametersAfter_iff rfl).2 hnamed
  refine lookup_bindingsOf ⟨_, hparameter, rfl⟩ fun p hp hpname => ?_
  cases hgenerated : p.isGenerated with
  | true =>
    have heq := eq_of_isGenerated h hparameter hp hpname.symm hgenerated
    rw [← heq]
  | false =>
    have hitem : .named p.name p.binding ∈ s.items := (mem_parametersAfter_iff hgenerated).1 hp
    rw [hpname, Statement.named_mem_items_iff, textBindings, List.mem_append] at hitem
    rcases hitem with hitem | hitem
    · obtain ⟨c', -, hitem⟩ := List.mem_flatMap.1 hitem
      obtain ⟨name', -, heq⟩ := List.mem_map.1 hitem
      obtain ⟨hsome, hbinding⟩ := Prod.mk.inj heq
      cases hsome
      exact hbinding.symm
    · obtain ⟨name', hname', heq⟩ := List.mem_map.1 hitem
      cases (Prod.mk.inj heq).1
      cases ho : s.order? with
      | none =>
        rw [ho] at hname'
        cases hname'
      | some order =>
        rw [ho] at hname'
        exact absurd (Placeholder.mem_names_iff.1 hname') (horder order ho)

/-! ## Compiled statements -/

theorem written_ne_plan (items : List Item) (fault : PlanFault) :
    written items ≠ .error (.plan fault) := by
  unfold written
  split <;> simp

theorem exists_written {items : List Item} (h : clash? items = none) :
    ∃ r, written items = .ok (some r) := by
  rw [written, render, h]
  exact ⟨_, rfl⟩

theorem of_written_eq_ok {items : List Item} {r : Rendered} (h : written items = .ok (some r)) :
    clash? items = none ∧ r.bindings = bindings items := by
  unfold written render at h
  cases hclash : clash? items with
  | some c =>
    rw [hclash] at h
    cases h
  | none =>
    rw [hclash] at h
    cases h
    exact ⟨rfl, rfl⟩

section
variable {f : Filters} {o : Options}

theorem compiled_of_checkPage {e : ServiceError} (h : checkPage o = .error e) :
    compiled f o = .error (.plan (.service e)) := by
  simp only [compiled, build, h, Except.mapError, bind, Except.bind]

theorem compiled_of_allNone (hpage : checkPage o = .ok ()) (h : f.allNone = true) :
    compiled f o = .ok none := by
  rw [compiled, (build_eq_ok_none_iff hpage).2 h]

theorem compiled_eq (hpage : checkPage o = .ok ()) (hactive : f.allNone = false) :
    compiled f o = match orphan? o with
      | some name => .error (.plan (.orphan name))
      | none => written (Statement.mk f o).items := by
  rw [compiled, build_eq hpage hactive]
  cases orphan? o <;> rfl

theorem written_of_compiled {r : Rendered} (h : compiled f o = .ok (some r)) :
    written (Statement.mk f o).items = .ok (some r) := by
  cases hpage : checkPage o with
  | error e =>
    rw [compiled_of_checkPage hpage] at h
    cases h
  | ok _ =>
    cases hactive : f.allNone with
    | true =>
      rw [compiled_of_allNone hpage hactive] at h
      cases h
    | false =>
      rw [compiled_eq hpage hactive] at h
      split at h
      · cases h
      · exact h

/-- With the same values for all placeholders, only a value that is left over tells two statements
apart. -/
theorem compiled_valued_iff {params : NamedValues}
    (hsame : ∀ c ∈ o.conditions, ∀ name, Occurs name c →
      params.lookup name = o.params.lookup name) :
    compiled f (o.valued params) = compiled f o ↔
      (∃ e, checkPage o = .error e) ∨ f.allNone = true ∨ orphan? (o.valued params) = orphan? o := by
  have hpage : checkPage (o.valued params) = checkPage o := rfl
  cases hchecked : checkPage o with
  | error e =>
    rw [compiled_of_checkPage hchecked, compiled_of_checkPage (hpage.trans hchecked)]
    exact iff_of_true rfl (.inl ⟨e, rfl⟩)
  | ok _ =>
    cases hactive : f.allNone with
    | true =>
      rw [compiled_of_allNone hchecked hactive, compiled_of_allNone (hpage.trans hchecked) hactive]
      exact iff_of_true rfl (.inr (.inl rfl))
    | false =>
      have hitems : (Statement.mk f (o.valued params)).items = (Statement.mk f o).items :=
        items_valued (fun c hc name hname => hsame c hc name (Placeholder.mem_names_iff.1 hname)) f
      have hcompiled := compiled_eq (hpage.trans hchecked) hactive
      rw [hitems] at hcompiled
      rw [hcompiled, compiled_eq hchecked hactive]
      have hplan := written_ne_plan (Statement.mk f o).items
      cases orphan? (o.valued params) with
      | none =>
        cases orphan? o with
        | none => simp
        | some name => simpa using hplan (.orphan name)
      | some name =>
        cases orphan? o with
        | none => simpa using (hplan (.orphan name)).symm
        | some name' => simp

end

/-- **What values a compiled statement depends on.** Take other values that agree with the given
ones on all placeholders of the conditions. Then the statement is compiled to the same text and the
same bindings, or fails for the same reason, exactly if it is not built at all or the same value is
left over: if none of the given ones is, none of the others may be; and it is the same one if no
name that is cut short has a value in one of them only. Whatever values are given, generated names
are bound as if there were none, and each name is bound to one value, that of a placeholder to the
value given for its name. -/
theorem compiled_valued (f : Filters) (o : Options) :
    (∀ params : NamedValues,
      (∀ c ∈ o.conditions, ∀ name, Occurs name c → params.lookup name = o.params.lookup name) →
        (compiled f (o.valued params) = compiled f o ↔
          (∃ e, checkPage o = .error e) ∨ f.allNone = true ∨
            orphan? (o.valued params) = orphan? o) ∧
        ((∀ name, ¬ o.IsLeftOver name) → (orphan? (o.valued params) = orphan? o ↔
          ∀ name, ¬ (o.valued params).IsLeftOver name)) ∧
        ((∀ c ∈ o.conditions, ∀ name, IsCutShort name c →
            (params.lookup name).isSome = (o.params.lookup name).isSome) →
          compiled f (o.valued params) = compiled f o)) ∧
    ∀ (params : NamedValues) (r : Rendered), compiled f (o.valued params) = .ok (some r) →
      (r.bindings.map (·.1)).Nodup ∧
      (∀ p ∈ generatedParameters (Statement.mk f (o.valued [])).items,
        r.bindings.lookup p.name = some p.binding) ∧
      ∀ c ∈ o.conditions, ∀ name, Occurs name c →
        (∀ order, o.order = some order → ¬ Occurs name order) →
          r.bindings.lookup name = some (.ofName params name) := by
  refine ⟨fun params hsame => ⟨compiled_valued_iff hsame, fun hnone => ?_, fun hcut => ?_⟩,
    fun params r hr => ?_⟩
  · rw [orphan?_eq_none_iff.2 hnone, orphan?_eq_none_iff]
  · exact (compiled_valued_iff hsame).2
      (.inr (.inr (orphan?_valued fun c hc name h _ => hcut c hc name h)))
  · obtain ⟨hclash, hbindings⟩ := of_written_eq_ok (written_of_compiled hr)
    rw [hbindings]
    refine ⟨nodup_names_bindingsOf _, fun p hp => ?_, fun c hc name hname horder => ?_⟩
    · have hsame : generatedParameters (Statement.mk f (o.valued [])).items
          = generatedParameters (Statement.mk f (o.valued params)).items :=
        generatedParameters_congr rfl rfl rfl rfl
      rw [hsame] at hp
      obtain ⟨hp, hgenerated⟩ := List.mem_filter.1 hp
      exact lookup_bindings_of_isGenerated hclash hp hgenerated
    · refine lookup_bindings_of_occurs (s := .mk f (o.valued params)) hclash hc hname
        fun order ho => ?_
      exact horder order (Option.mem_filter_iff.1 ho).1

/-- A value for the name of a key is no value of the key. -/
theorem compiled_of_unnamed_key :
    (∀ c ∈ ["e.id = :x"], ∀ name, Occurs name c →
      ([("courseid_1", .int 4), ("x", .int 1)] : NamedValues).lookup name
        = ([("x", .int 1)] : NamedValues).lookup name) ∧
    compiled ⟨.nobody, .nobody, .ofIds [5], .nobody⟩
        { Options.default with
          conditions := ["e.id = :x"], params := [("courseid_1", .int 4), ("x", .int 1)] }
      = compiled ⟨.nobody, .nobody, .ofIds [5], .nobody⟩
        { Options.default with conditions := ["e.id = :x"], params := [("x", .int 1)] } := by
  have hlookedUp : ∀ c ∈ ["e.id = :x"], ∀ name, name ∈ Placeholder.lookedUp c → name = "x" := by
    decide
  have hsame : ∀ c ∈ ["e.id = :x"], ∀ name, Occurs name c →
      ([("courseid_1", .int 4), ("x", .int 1)] : NamedValues).lookup name
        = ([("x", .int 1)] : NamedValues).lookup name := by
    intro c hc name hname
    rw [hlookedUp c hc name (Placeholder.mem_lookedUp_iff.2 (.inl hname))]
    rfl
  refine ⟨hsame, ((compiled_valued ⟨.nobody, .nobody, .ofIds [5], .nobody⟩
    { Options.default with conditions := ["e.id = :x"], params := [("x", .int 1)] }).1
      [("courseid_1", .int 4), ("x", .int 1)] hsame).2.2 fun c hc name hname => ?_⟩
  rw [hlookedUp c hc name (Placeholder.mem_lookedUp_iff.2 (.inr hname))]
  rfl

/-- A value that no placeholder names keeps a statement from being compiled. -/
theorem compiled_of_quotedColons :
    (∀ c ∈ Store.quotedColons.conditions, ∀ name, ¬ Occurs name c) ∧
      (∃ r, compiled ⟨.nobody, .nobody, .ofIds [5], .nobody⟩ (Store.quotedColons.valued [])
        = .ok (some r)) ∧
      compiled ⟨.nobody, .nobody, .ofIds [5], .nobody⟩ Store.quotedColons
        = .error (.plan (.orphan "a")) := by
  have hnames : ∀ c ∈ Store.quotedColons.conditions, Placeholder.names c = [] := by decide
  refine ⟨fun c hc name hname => ?_, ?_, rfl⟩
  · have hmem := Placeholder.mem_names_iff.2 hname
    rw [hnames c hc] at hmem
    cases hmem
  · have hclash : clash? (Statement.mk ⟨.nobody, .nobody, .ofIds [5], .nobody⟩
        (Store.quotedColons.valued [])).items = none := by
      refine (Statement.clash?_items_eq_none_iff (by rfl)).2 fun name hname => ?_
      cases hname
    obtain ⟨r, hr⟩ := exists_written hclash
    exact ⟨r, (compiled_eq rfl rfl).trans hr⟩

end EventCalendar.Listing
