import EventCalendar.Proofs.BoundValues
import EventCalendar.Proofs.DimensionRule
import EventCalendar.Proofs.ParameterNames
import EventCalendar.Proofs.StatementText

/-!
# Running a statement

When a statement runs, said on the texts and the numbers that it is put together from. The order has
no placeholders here.

* `Filters.Fits`: there are cells for the ids of all active filters.
* `clash?_items_eq_none_iff`, `exists_values_iff`, `unfit?_items_eq_none_iff`: the names and values.
* `execute_eq_ok_iff`: **a statement lists events** exactly if it passes every check.
* `Reads.execute_eq_ok_iff`: **what a statement lists** whose texts can be read, each on its own.
-/

set_option autoImplicit false

namespace EventCalendar

/-- There is a cell for each id that a filter asks for. -/
def Filters.Fits (f : Filters) : Prop :=
  ∀ d, (f.get d).mode = .specific → ∀ i ∈ (f.get d).ids.toList, Cell.fits i = true

instance (f : Filters) : Decidable f.Fits :=
  decidable_of_iff (∀ d ∈ Dimension.all,
      (f.get d).mode = .specific → ∀ i ∈ (f.get d).ids.toList, Cell.fits i = true)
    ⟨fun h d => h d d.mem_all, fun h d _ => h d⟩

theorem Filters.allNone_of_not_fits {f : Filters} (h : ¬ f.Fits) : f.allNone = false := by
  cases hactive : f.allNone with
  | false => rfl
  | true =>
    refine absurd (fun d hd => ?_) h
    have hnone := Filters.isNone_of_allNone hactive d
    rw [FilterSpec.isNone, hd] at hnone
    cases hnone

namespace Listing

/-! ## Values of keys -/

theorem KeyTest.binding_ofFilter (key : Column) (f : FilterSpec) :
    (KeyTest.ofFilter key f).binding
      = if f.mode = .all then .scalar (.int 0) else .expanding (f.ids.toList.map .int) := by
  unfold ofFilter
  split <;> rfl

theorem mem_predicate? {d : Dimension} {f : FilterSpec} {p : Predicate}
    (hp : predicate? d f = some p) :
    KeyTest.ofFilter d.key f ∈ p ∧ ∀ k ∈ p, k = .ofFilter d.key f ∨ ∃ c, k = .isZero c := by
  unfold predicate? at hp
  split at hp
  · cases hp
  · cases d <;> cases hp <;> simp [Dimension.key]

theorem mem_keyBindings {f : Filters} {x : Option String × Binding} (h : x ∈ keyBindings f) :
    x = (none, .scalar (.int 0)) ∨
      ∃ d, (f.get d).mode = .specific ∧ x = (none, .expanding ((f.get d).ids.toList.map .int)) := by
  obtain ⟨p, hp, h⟩ := List.mem_flatMap.1 h
  obtain ⟨k, hk, rfl⟩ := List.mem_map.1 h
  obtain ⟨d, hd⟩ := mem_predicates_iff.1 hp
  have hactive : (f.get d).isNone = false := by
    cases hn : (f.get d).isNone with
    | false => rfl
    | true => rw [predicate?_eq_none_iff.2 hn] at hd; cases hd
  rcases (mem_predicate? hd).2 k hk with rfl | ⟨c, rfl⟩
  · rw [KeyTest.binding_ofFilter]
    split
    · exact .inl rfl
    · rename_i hall
      refine .inr ⟨d, ?_, rfl⟩
      cases hm : (f.get d).mode <;> simp_all [FilterSpec.isNone]
  · exact .inl rfl

theorem expanding_mem_keyBindings {f : Filters} {d : Dimension} (h : (f.get d).mode = .specific) :
    (none, .expanding ((f.get d).ids.toList.map .int)) ∈ keyBindings f := by
  cases hp : predicate? d (f.get d) with
  | none =>
    have hn := predicate?_eq_none_iff.1 hp
    simp [FilterSpec.isNone, h] at hn
  | some p =>
    refine List.mem_flatMap.2 ⟨p, mem_predicates_iff.2 ⟨d, hp⟩, ?_⟩
    refine List.mem_map.2 ⟨_, (mem_predicate? hp).1, ?_⟩
    rw [KeyTest.binding_ofFilter, if_neg (by simp [h])]

namespace Statement

/-! ## Names and values of a statement -/

def names (s : Statement) : List String := s.conditions.flatMap Placeholder.names

def PlainOrder (s : Statement) : Prop := s.order?.elim [] Placeholder.names = []

section
variable {s : Statement} (horder : s.PlainOrder)
include horder

theorem mem_textBindings {x : Option String × Binding} :
    x ∈ textBindings s ↔ ∃ name ∈ s.names, x = (some name, .ofName s.options.params name) := by
  rw [textBindings, horder, List.map_nil, List.append_nil]
  simp only [names, List.mem_flatMap, List.mem_map]
  constructor
  · rintro ⟨c, hc, name, hname, rfl⟩
    exact ⟨name, ⟨c, hc, hname⟩, rfl⟩
  · rintro ⟨name, ⟨c, hc, hname⟩, rfl⟩
    exact ⟨c, hc, name, hname, rfl⟩

/-- The names of a statement clash exactly if a condition uses a generated one. -/
theorem clash?_items_eq_none_iff :
    clash? s.items = none ↔ ∀ name ∈ s.names, name ∉ generatedNames s.items := by
  have hnamed : ∀ name b, .named name b ∈ s.items ↔
      name ∈ s.names ∧ b = .ofName s.options.params name := by
    intro name b
    rw [named_mem_items_iff, mem_textBindings horder]
    constructor
    · rintro ⟨name', hname, ⟨⟩⟩
      exact ⟨hname, rfl⟩
    · rintro ⟨hname, rfl⟩
      exact ⟨name, hname, rfl⟩
  rw [Listing.clash?_eq_none_iff fun name b h => ((hnamed name b).1 h).2]
  constructor
  · intro h name hname
    exact h name _ ((hnamed name _).2 ⟨hname, rfl⟩)
  · intro h name b hb
    exact h name ((hnamed name b).1 hb).1

theorem mem_itemBindings_iff {b : Binding} :
    b ∈ itemBindings s.items ↔
      (none, b) ∈ keyBindings s.filters ∨ b = .scalar (.int 1) ∨ (none, b) ∈ pageBindings s ∨
        ∃ name ∈ s.names, b = .ofName s.options.params name := by
  have hkeys : ∀ x ∈ keyBindings s.filters, x.1 = none := by
    intro x hx
    rcases mem_keyBindings hx with rfl | ⟨d, -, rfl⟩ <;> rfl
  have hpage : ∀ x ∈ pageBindings s, x.1 = none := by
    intro x hx
    unfold pageBindings at hx
    split at hx <;> simp at hx
    rcases hx with rfl | rfl <;> rfl
  rw [mem_itemBindings]
  simp only [mem_filterMap_bound?_items, mem_textBindings horder]
  constructor
  · rintro ⟨name?, h | h | ⟨name, hname, h⟩ | h⟩
    · obtain rfl := hkeys _ h
      exact .inl h
    · cases h
      exact .inr (.inl rfl)
    · cases h
      exact .inr (.inr (.inr ⟨name, hname, rfl⟩))
    · obtain rfl := hpage _ h
      exact .inr (.inr (.inl h))
  · rintro (h | rfl | h | ⟨name, hname, rfl⟩)
    · exact ⟨none, .inl h⟩
    · exact ⟨none, .inr (.inl rfl)⟩
    · exact ⟨none, .inr (.inr (.inr h))⟩
    · exact ⟨some name, .inr (.inr (.inl ⟨name, hname, rfl⟩))⟩

theorem exists_values_iff :
    (∃ values, boundValues? s.items = some values) ↔
      ∀ name ∈ s.names, ∃ vs, (Binding.ofName s.options.params name).values? = some vs := by
  rw [exists_boundValues_iff]
  simp only [mem_itemBindings_iff horder]
  constructor
  · intro h name hname
    exact h _ (.inr (.inr (.inr ⟨name, hname, rfl⟩)))
  · rintro h b (hb | rfl | hb | ⟨name, hname, rfl⟩)
    · rcases mem_keyBindings hb with hb | ⟨d, -, hb⟩ <;> cases hb
      · exact ⟨_, Binding.values?_int 0⟩
      · exact ⟨_, Binding.values?_ints _⟩
    · exact ⟨_, Binding.values?_int 1⟩
    · unfold pageBindings at hb
      split at hb <;> simp at hb
      rcases hb with rfl | rfl <;> exact ⟨_, Binding.values?_int _⟩
    · exact h name hname

/-- The numbers of the page fit into cells. -/
def PageFits (s : Statement) : Prop :=
  s.isPaged = true → Cell.fits (s.limit?.getD (-1)) = true ∧ Cell.fits s.offset = true

theorem unfit?_items_eq_none_iff {values : List Value} (h : boundValues? s.items = some values) :
    unfit? values = none ↔
      s.filters.Fits ∧ s.PageFits ∧
        ∀ name ∈ s.names, (Binding.ofName s.options.params name).Bindable := by
  rw [unfit?_eq_none_iff h]
  simp only [mem_itemBindings_iff horder]
  constructor
  · intro hall
    refine ⟨fun d hd => ?_, fun hpaged => ?_, fun name hname => ?_⟩
    · exact Binding.bindable_ints_iff.1 (hall _ (.inl (expanding_mem_keyBindings hd)))
    · simp only [pageBindings, hpaged, if_true] at hall
      exact ⟨Binding.bindable_int_iff.1 (hall _ (.inr (.inr (.inl (by simp))))),
        Binding.bindable_int_iff.1 (hall _ (.inr (.inr (.inl (by simp)))))⟩
    · exact hall _ (.inr (.inr (.inr ⟨name, hname, rfl⟩)))
  · rintro ⟨hfits, hpage, hnames⟩ b (hb | rfl | hb | ⟨name, hname, rfl⟩)
    · rcases mem_keyBindings hb with hb | ⟨d, hd, hb⟩ <;> cases hb
      · exact Binding.bindable_int_iff.2 (by decide)
      · exact Binding.bindable_ints_iff.2 (hfits d hd)
    · exact Binding.bindable_int_iff.2 (by decide)
    · unfold pageBindings at hb
      split at hb
      · rename_i hpaged
        simp at hb
        rcases hb with rfl | rfl
        · exact Binding.bindable_int_iff.2 (hpage hpaged).1
        · exact Binding.bindable_int_iff.2 (hpage hpaged).2
      · cases hb
    · exact hnames name hname

end

/-! ## Outcomes -/

theorem outcome_eq_ok_iff {clash : Option ParameterClash} {values : Option (List Value)}
    {tables : Option Tables} {tokens : Option (List Sql.Token)} {selection : Option Sql.Selection}
    {list : Sql.Selection → Tables → List Event} {events : List Event} :
    outcome clash values tables tokens selection list = .ok events ↔
      clash = none ∧ (∃ vs, values = some vs ∧ unfit? vs = none) ∧
        ∃ t ts sel, tables = some t ∧ tokens = some ts ∧ selection = some sel ∧
          ts.any Sql.Token.isUnmatched = false ∧ events = list sel t := by
  constructor
  · intro h
    unfold outcome at h
    split at h
    · cases h
    · split at h
      · cases h
      · rename_i values
        split at h
        · rename_i t ts sel
          split at h
          · cases h
          · rename_i hmatched
            split at h
            · cases h
            · rename_i hfit
              cases h
              exact ⟨rfl, ⟨values, rfl, hfit⟩, t, ts, sel, rfl, rfl, rfl, by simpa using hmatched,
                rfl⟩
        · cases h
  · rintro ⟨rfl, ⟨vs, rfl, hfit⟩, t, ts, sel, rfl, rfl, rfl, hmatched, rfl⟩
    simp only [outcome, hmatched, hfit, Bool.false_eq_true, if_false]

/-- A value is looked at last. -/
theorem of_outcome_eq_unfit {clash : Option ParameterClash} {values : Option (List Value)}
    {tables : Option Tables} {tokens : Option (List Sql.Token)} {selection : Option Sql.Selection}
    {list : Sql.Selection → Tables → List Event} {fault : Cell.BindFault}
    (h : outcome clash values tables tokens selection list = .error (.unfit fault)) :
    ∃ vs t ts sel, values = some vs ∧ tables = some t ∧ tokens = some ts ∧ selection = some sel ∧
      ts.any Sql.Token.isUnmatched = false := by
  unfold outcome at h
  split at h
  · cases h
  · split at h
    · cases h
    · rename_i values
      split at h
      · rename_i t ts sel
        split at h
        · cases h
        · rename_i hmatched
          exact ⟨values, t, ts, sel, rfl, rfl, rfl, rfl, by simpa using hmatched⟩
      · cases h

/-- **A statement lists events** exactly if it passes every check. -/
theorem execute_eq_ok_iff {s : Statement} {tables : Option Tables} {events : List Event} :
    s.execute tables = .ok events ↔
      clash? s.items = none ∧ (∃ vs, boundValues? s.items = some vs ∧ unfit? vs = none) ∧
        ∃ t ts sel, tables = some t ∧ s.tokens? = some ts ∧ s.selection? = some sel ∧
          ts.any Sql.Token.isUnmatched = false ∧ events = s.list sel t :=
  outcome_eq_ok_iff

/-! ## Statements whose texts can be read -/

/-- The texts of a statement can be read, each on its own, and leave no parameter without a value.
-/
structure Reads (s : Statement) (reading : String → List (List Expr)) (order : List Sql.OrderTerm) :
    Prop where
  conditions : ∀ c ∈ s.conditions, ∃ tokens, conditionTokens? s.options.params c = some tokens ∧
    Sql.Alternatives tokens (reading c) ∧ tokens.any Sql.Token.isUnmatched = false
  order : ∃ tokens, s.orderTokens? = some tokens ∧ Sql.orderOf? tokens = some order ∧
    tokens.any Sql.Token.isUnmatched = false
  plainOrder : s.PlainOrder

section
variable {s : Statement} {reading : String → List (List Expr)} {order : List Sql.OrderTerm}

theorem any_isUnmatched_conjoined (tokens : List (List Sql.Token)) :
    (conjoined tokens).any Sql.Token.isUnmatched = tokens.any (·.any Sql.Token.isUnmatched) := by
  rw [conjoined, List.any_flatMap]
  rfl

theorem tokens?_matched {tokensOf : String → List Sql.Token} {orderTokens : List Sql.Token}
    (h : ∀ c ∈ s.conditions, conditionTokens? s.options.params c = some (tokensOf c))
    (horder : s.orderTokens? = some orderTokens) :
    ∃ tokens, s.tokens? = some tokens ∧ tokens.any Sql.Token.isUnmatched
      = ((s.conditions.any fun c => (tokensOf c).any Sql.Token.isUnmatched)
        || orderTokens.any Sql.Token.isUnmatched) := by
  refine ⟨_, by rw [tokens?_eq h, horder]; rfl, ?_⟩
  have htail : (tailTokens s.options.showHidden (s.conditions.map tokensOf)).any Sql.Token.isUnmatched
      = s.conditions.any fun c => (tokensOf c).any Sql.Token.isUnmatched := by
    rw [tailTokens, any_isUnmatched_conjoined, List.any_append, List.any_map]
    cases s.options.showHidden <;> simp [visibleTokens, Sql.Token.isUnmatched, Function.comp_def]
  simp only [List.any_cons, List.any_append, htail, Sql.Token.isUnmatched, Bool.false_or]

theorem readTokens (h : ∀ c ∈ s.conditions, ∃ tokens,
      conditionTokens? s.options.params c = some tokens ∧ Sql.Alternatives tokens (reading c) ∧
        tokens.any Sql.Token.isUnmatched = false) :
    ∃ tokensOf : String → List Sql.Token,
      (∀ c ∈ s.conditions, conditionTokens? s.options.params c = some (tokensOf c)) ∧
      (∀ c ∈ s.conditions, Sql.Alternatives (tokensOf c) (reading c)) ∧
      (s.conditions.any fun c => (tokensOf c).any Sql.Token.isUnmatched) = false := by
  have hc : ∀ c ∈ s.conditions, conditionTokens? s.options.params c
        = some ((conditionTokens? s.options.params c).getD []) ∧
      Sql.Alternatives ((conditionTokens? s.options.params c).getD []) (reading c) ∧
      ((conditionTokens? s.options.params c).getD []).any Sql.Token.isUnmatched = false := by
    intro c hc
    obtain ⟨tokens, htokens, hread, hmatched⟩ := h c hc
    rw [htokens]
    exact ⟨rfl, hread, hmatched⟩
  refine ⟨_, fun c hcs => (hc c hcs).1, fun c hcs => (hc c hcs).2.1, ?_⟩
  rw [List.any_eq_false]
  intro c hcs
  simp [(hc c hcs).2.2]

theorem Reads.exists_selection (h : s.Reads reading order) :
    ∃ tokens e, s.tokens? = some tokens ∧ tokens.any Sql.Token.isUnmatched = false ∧
      s.selection? = some ⟨e, order⟩ ∧ ∀ row, e.holds row
        = Sql.anyHolds (pasted s.filters s.options.showHidden (s.conditions.map reading)) row := by
  obtain ⟨orderTokens, hto, hor, hmo⟩ := h.order
  obtain ⟨tokensOf, htc, hread, hmc⟩ := readTokens h.conditions
  obtain ⟨tokens, htokens, hmatched⟩ := tokens?_matched htc hto
  obtain ⟨e, he, hselection⟩ := selection?_eq htc hread
  refine ⟨tokens, e, htokens, by rw [hmatched, hmc, hmo]; rfl, ?_, he⟩
  rw [hselection, hto, Option.bind_some, hor, Option.map_some]

def selectedRows (s : Statement) (reading : String → List (List Expr)) (t : Tables) : List Row :=
  (joinedRows s.filters s.options.showHidden t).filter
    (Sql.anyHolds (pasted s.filters s.options.showHidden (s.conditions.map reading)))

/-- **What a statement lists** whose texts can be read: the page of its sorted rows, if no name of a
condition is a generated one and there is a cell for every value. -/
theorem Reads.execute_eq_ok_iff (h : s.Reads reading order) {t : Tables} {events : List Event} :
    s.execute (some t) = .ok events ↔
      (∀ name ∈ s.names, name ∉ generatedNames s.items) ∧
        (s.filters.Fits ∧ s.PageFits ∧
          ∀ name ∈ s.names, (Binding.ofName s.options.params name).Bindable) ∧
        events
          = cut s.offset s.limit? ((sortRows order (s.selectedRows reading t)).map (·.event)) := by
  obtain ⟨tokens, e, htokens, hmatched, hselection, he⟩ := h.exists_selection
  have hlist : s.list ⟨e, order⟩ t
      = cut s.offset s.limit? ((sortRows order (s.selectedRows reading t)).map (·.event)) := by
    rw [list, selected, selectedRows, show e.holds = _ from funext he]
  rw [Statement.execute_eq_ok_iff, clash?_items_eq_none_iff h.plainOrder]
  refine and_congr_right fun _ => and_congr ⟨?_, ?_⟩ ⟨?_, ?_⟩
  · rintro ⟨values, hvalues, hfit⟩
    exact (unfit?_items_eq_none_iff h.plainOrder hvalues).1 hfit
  · intro hall
    obtain ⟨values, hvalues⟩ := (exists_values_iff h.plainOrder).2 fun name hname =>
      (hall.2.2 name hname).imp fun vs hvs => hvs.1
    exact ⟨values, hvalues, (unfit?_items_eq_none_iff h.plainOrder hvalues).2 hall⟩
  · rintro ⟨t', ts, sel, ht, hts, hsel, -, rfl⟩
    rw [hselection] at hsel
    cases ht
    cases hsel
    exact hlist
  · rintro rfl
    exact ⟨t, tokens, _, rfl, htokens, hselection, hmatched, hlist.symm⟩

/-- **A statement fails for the width of a number**, if its texts can be read and name integers
only, exactly if there is no cell for one of its integers. -/
theorem Reads.execute_eq_tooWide_iff (h : s.Reads reading order)
    (hclash : ∀ name ∈ s.names, name ∉ generatedNames s.items)
    (hnamed : ∀ name ∈ s.names, ∃ n, Binding.ofName s.options.params name = .scalar (.int n))
    (t : Tables) :
    s.execute (some t) = .error (.unfit .tooWide) ↔
      ¬ (s.filters.Fits ∧ s.PageFits ∧
        ∀ name ∈ s.names, (Binding.ofName s.options.params name).Bindable) := by
  refine ⟨fun htooWide hfits => ?_, fun hfits => ?_⟩
  · have hok := (h.execute_eq_ok_iff (t := t)).2 ⟨hclash, hfits, rfl⟩
    rw [htooWide] at hok
    cases hok
  obtain ⟨tokens, e, htokens, hmatched, hselection, -⟩ := h.exists_selection
  obtain ⟨values, hvalues⟩ : ∃ values, boundValues? s.items = some values := by
    rw [exists_values_iff h.plainOrder]
    intro name hname
    obtain ⟨n, hn⟩ := hnamed name hname
    rw [hn]
    exact ⟨_, Binding.values?_int n⟩
  have hints : ∀ v ∈ values, ∃ n, v = .int n := by
    intro v hv
    obtain ⟨b, hb, vs, hvs, hmem⟩ := (mem_boundValues hvalues v).1 hv
    rw [mem_itemBindings_iff h.plainOrder] at hb
    rcases hb with hb | rfl | hb | ⟨name, hname, rfl⟩
    · rcases mem_keyBindings hb with hb | ⟨d, -, hb⟩ <;> cases hb
      · cases hvs
        exact ⟨0, by simpa using hmem⟩
      · rw [Binding.values?_ints] at hvs
        cases hvs
        obtain ⟨i, -, rfl⟩ := List.mem_map.1 hmem
        exact ⟨i, rfl⟩
    · cases hvs
      exact ⟨1, by simpa using hmem⟩
    · unfold pageBindings at hb
      split at hb <;> simp at hb
      rcases hb with rfl | rfl <;> cases hvs <;> exact ⟨_, by simpa using hmem⟩
    · obtain ⟨n, hn⟩ := hnamed name hname
      rw [hn] at hvs
      cases hvs
      exact ⟨n, by simpa using hmem⟩
  have hunfit : unfit? values = some .tooWide := by
    exact unfit?_ints hints fun hnone =>
      hfits ((unfit?_items_eq_none_iff h.plainOrder hvalues).1 hnone)
  unfold execute
  rw [(clash?_items_eq_none_iff h.plainOrder).2 hclash, hvalues, htokens, hselection]
  simp only [outcome, hmatched, hunfit, Bool.false_eq_true, if_false]

section
variable (hc : ∀ c ∈ s.conditions, ∃ tokens, conditionTokens? s.options.params c = some tokens ∧
  Sql.Alternatives tokens (reading c) ∧ tokens.any Sql.Token.isUnmatched = false)
include hc

/-- A statement that can be read as a whole can be read text by text if its conditions can. -/
theorem reads_of_selection? {values : List Value} (hvalues : boundValues? s.items = some values)
    {tokens : List Sql.Token} (htokens : s.tokens? = some tokens) {selection : Sql.Selection}
    (hselection : s.selection? = some selection)
    (hmatched : tokens.any Sql.Token.isUnmatched = false) : ∃ order, s.Reads reading order := by
  obtain ⟨tokensOf, htc, hread, hmc⟩ := readTokens hc
  obtain ⟨e, -, hsel⟩ := selection?_eq htc hread
  rw [hselection] at hsel
  obtain ⟨order, hor, -⟩ := Option.map_eq_some_iff.1 hsel.symm
  obtain ⟨orderTokens, hto, hor⟩ := Option.bind_eq_some_iff.1 hor
  obtain ⟨tokens', htokens', hmatched'⟩ := tokens?_matched htc hto
  rw [htokens] at htokens'
  cases htokens'
  rw [hmatched, hmc, Bool.false_or] at hmatched'
  refine ⟨order, hc, ⟨orderTokens, hto, hor, hmatched'.symm⟩, ?_⟩
  refine List.eq_nil_iff_forall_not_mem.2 fun name hname => ?_
  have hbound : (some name, Binding.missing) ∈ s.items.filterMap Item.bound? := by
    rw [mem_filterMap_bound?_items]
    refine .inr (.inr (.inl (List.mem_append_right _ ?_)))
    exact List.mem_map.2 ⟨name, hname, rfl⟩
  obtain ⟨vs, hvs⟩ := exists_boundValues_iff.1 ⟨values, hvalues⟩ .missing
    (mem_itemBindings.2 ⟨_, hbound⟩)
  cases hvs

theorem reads_of_execute {tables : Option Tables} {events : List Event}
    (h : s.execute tables = .ok events) : ∃ order, s.Reads reading order := by
  obtain ⟨-, ⟨values, hvalues, -⟩, t, tokens, selection, -, htokens, hselection, hmatched, -⟩ :=
    Statement.execute_eq_ok_iff.1 h
  exact reads_of_selection? hc hvalues htokens hselection hmatched

theorem reads_of_execute_unfit {tables : Option Tables} {fault : Cell.BindFault}
    (h : s.execute tables = .error (.unfit fault)) :
    tables.isSome = true ∧ ∃ order, s.Reads reading order := by
  obtain ⟨values, t, tokens, selection, hvalues, rfl, htokens, hselection, hmatched⟩ :=
    of_outcome_eq_unfit h
  exact ⟨rfl, reads_of_selection? hc hvalues htokens hselection hmatched⟩

end

end

end Statement

end Listing

end EventCalendar
