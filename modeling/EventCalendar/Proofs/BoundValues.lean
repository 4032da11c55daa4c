import EventCalendar.Listing.Execution

/-!
# Bound values of a statement

What a statement binds: the values of its key tests, those that its conditions name, and the numbers
of its page (`Statement.mem_filterMap_bound?_items`). A statement runs only if there is a value for
every name and a cell for every value:

* `exists_boundValues_iff`: the values of bindings that have some.
* `unfit?_eq_none_iff`: no value is refused exactly if there is a cell for each.
-/

set_option autoImplicit false

namespace EventCalendar.Listing

/-! ## Values of bindings -/

/-- There is a cell for each value that is bound. -/
def Binding.Bindable (b : Binding) : Prop :=
  ∃ vs, b.values? = some vs ∧ ∀ v ∈ vs, ∃ c, Cell.ofValue v = .ok c

theorem Binding.values?_int (n : Int) : (Binding.scalar (.int n)).values? = some [.int n] := rfl

theorem Binding.values?_ints (ids : List Int) :
    (Binding.expanding (ids.map .int)).values? = some (ids.map .int) := by
  cases ids <;> rfl

theorem ofValue_int_eq_ok_iff {n : Int} :
    (∃ c, Cell.ofValue (.int n) = .ok c) ↔ Cell.fits n = true := by
  simp only [Cell.ofValue]
  split <;> simp_all

theorem Binding.bindable_iff {b : Binding} {vs : List Value} (h : b.values? = some vs) :
    b.Bindable ↔ ∀ v ∈ vs, ∃ c, Cell.ofValue v = .ok c := by
  constructor
  · rintro ⟨vs', h', hall⟩
    rw [h] at h'
    cases h'
    exact hall
  · exact fun hall => ⟨vs, h, hall⟩

theorem Binding.bindable_int_iff {n : Int} :
    (Binding.scalar (.int n)).Bindable ↔ Cell.fits n = true := by
  rw [bindable_iff (values?_int n)]
  simp [ofValue_int_eq_ok_iff]

theorem Binding.bindable_ints_iff {ids : List Int} :
    (Binding.expanding (ids.map .int)).Bindable ↔ ∀ i ∈ ids, Cell.fits i = true := by
  rw [bindable_iff (values?_ints ids)]
  simp [ofValue_int_eq_ok_iff]

def itemBindings (items : List Item) : List Binding := items.filterMap Item.binding?

/-- Values are collected exactly if every binding has some. -/
theorem exists_boundValues_iff {items : List Item} :
    (∃ values, boundValues? items = some values) ↔
      ∀ b ∈ itemBindings items, ∃ vs, b.values? = some vs := by
  simp only [boundValues?, Option.map_eq_some_iff, exists_comm (α := List Value), exists_and_left,
    exists_eq', and_true, itemBindings]
  generalize items.filterMap Item.binding? = bs
  induction bs with
  | nil => exact ⟨fun _ => by simp, fun _ => ⟨[], rfl⟩⟩
  | cons b bs ih =>
    rw [List.forall_mem_cons, ← ih]
    cases hb : b.values? with
    | none => simp [hb]
    | some vs => cases hbs : bs.mapM Binding.values? <;> simp [hb, hbs]

theorem mem_boundValues {items : List Item} {values : List Value}
    (h : boundValues? items = some values) (v : Value) :
    v ∈ values ↔ ∃ b ∈ itemBindings items, ∃ vs, b.values? = some vs ∧ v ∈ vs := by
  obtain ⟨vss, hvss, rfl⟩ := Option.map_eq_some_iff.1 h
  clear h
  rw [← itemBindings] at hvss
  generalize itemBindings items = bs at hvss
  induction bs generalizing vss with
  | nil =>
    cases hvss
    simp
  | cons b bs ih =>
    rw [List.mapM_cons] at hvss
    obtain ⟨vs, hvs, hrest⟩ := Option.bind_eq_some_iff.1 hvss
    obtain ⟨rest, hbs, heq⟩ := Option.bind_eq_some_iff.1 hrest
    cases heq
    rw [List.flatten_cons, List.mem_append, ih rest hbs]
    simp [hvs]

/-- No value is refused exactly if there is a cell for each value of each binding. -/
theorem unfit?_eq_none_iff {items : List Item} {values : List Value}
    (h : boundValues? items = some values) :
    Statement.unfit? values = none ↔ ∀ b ∈ itemBindings items, b.Bindable := by
  have hvalues : Statement.unfit? values = none ↔ ∀ v ∈ values, ∃ c, Cell.ofValue v = .ok c := by
    rw [Statement.unfit?, List.findSome?_eq_none_iff]
    refine forall_congr' fun v => imp_congr_right fun _ => ?_
    cases Cell.ofValue v <;> simp
  rw [hvalues]
  constructor
  · intro hall b hb
    obtain ⟨vs, hvs⟩ := exists_boundValues_iff.1 ⟨values, h⟩ b hb
    exact ⟨vs, hvs, fun v hv => hall v ((mem_boundValues h v).2 ⟨b, hb, vs, hvs, hv⟩)⟩
  · intro hall v hv
    obtain ⟨b, hb, vs, hvs, hmem⟩ := (mem_boundValues h v).1 hv
    exact (Binding.bindable_iff hvs).1 (hall b hb) v hmem

theorem unfit?_ints {values : List Value} (h : ∀ v ∈ values, ∃ n, v = .int n)
    (hunfit : Statement.unfit? values ≠ none) : Statement.unfit? values = some .tooWide := by
  obtain ⟨fault, hfault⟩ := Option.ne_none_iff_exists'.1 hunfit
  obtain ⟨v, hv, hrefused⟩ := List.exists_of_findSome?_eq_some hfault
  obtain ⟨n, rfl⟩ := h v hv
  rw [hfault]
  simp only [Cell.ofValue] at hrefused
  split at hrefused
  · cases hrefused
  · rename_i hcell
    split at hcell <;> cases hcell
    exact hrefused.symm

/-! ## What a statement binds -/

/-- What an item binds, under the name that the caller gives. -/
def Item.bound? : Item → Option (Option String × Binding)
  | .char _ => none
  | .fresh _ b => some (none, b)
  | .named name b => some (some name, b)

def KeyTest.binding : KeyTest → Binding
  | .isZero _ => .scalar (.int 0)
  | .nonzero _ => .scalar (.int 0)
  | .among _ ids => .expanding (ids.toList.map .int)

def keyBindings (f : Filters) : List (Option String × Binding) :=
  (predicates f).flatMap fun p => p.map fun k => (none, k.binding)

def visibleBindings (showHidden : Bool) : List (Option String × Binding) :=
  if showHidden then [] else [(none, .scalar (.int 1))]

section
variable {α : Type} {g : Item → Option α} (hg : ∀ c, g (.char c) = none)
include hg

theorem filterMap_plain (s : String) : (Item.plain s).filterMap g = [] := by
  simp only [Item.plain, List.filterMap_map, List.filterMap_eq_nil_iff]
  exact fun c _ => hg c

theorem filterMap_joined (separator : String) (xss : List (List Item)) :
    (Item.joined separator xss).filterMap g = xss.flatMap (·.filterMap g) := by
  induction xss with
  | nil => rfl
  | cons xs xss ih =>
    cases xss with
    | nil => simp [Item.joined]
    | cons ys xss => simp [Item.joined, filterMap_plain hg, ih]

theorem filterMap_predicates {h : KeyTest → α} {table : String}
    (hh : ∀ k : KeyTest, (k.items table).filterMap g = [h k]) (enclosed : Bool) (f : Filters) :
    (disjunctionItems table enclosed (predicates f)).filterMap g
      = (predicates f).flatMap fun p => p.map h := by
  have hpredicate : ∀ p : Predicate, (p.items table).filterMap g = p.map h := by
    intro p
    rw [Predicate.items, filterMap_joined hg, List.flatMap_map, List.map_eq_flatMap]
    simp only [hh]
  have hinner : (Item.joined " OR " ((predicates f).map (Predicate.items table))).filterMap g
      = (predicates f).flatMap fun p => p.map h := by
    rw [filterMap_joined hg, List.flatMap_map]
    simp only [hpredicate]
  unfold disjunctionItems
  split
  · simp only [List.filterMap_append, filterMap_plain hg, hinner, List.nil_append, List.append_nil]
  · exact hinner

end

theorem filterMap_bound?_plain (s : String) : (Item.plain s).filterMap Item.bound? = [] :=
  filterMap_plain (fun _ => rfl) s

theorem filterMap_bound?_keyTest (table : String) (k : KeyTest) :
    (k.items table).filterMap Item.bound? = [(none, k.binding)] := by
  cases k <;>
    simp [KeyTest.items, Item.equals, Item.column, Item.ofColumn, filterMap_bound?_plain, Item.bound?,
      KeyTest.binding]

theorem filterMap_bound?_predicates (table : String) (enclosed : Bool) (f : Filters) :
    (disjunctionItems table enclosed (predicates f)).filterMap Item.bound? = keyBindings f :=
  filterMap_predicates (fun _ => rfl) (filterMap_bound?_keyTest table) enclosed f

theorem filterMap_bound?_ofText (params : NamedValues) (s : String) :
    (Item.ofText params s).filterMap Item.bound?
      = (Placeholder.names s).map fun name => (some name, .ofName params name) := by
  rw [Item.ofText, Placeholder.names, List.filterMap_map, List.map_filterMap]
  congr 1
  funext x
  cases x <;> rfl

def pageBindings (s : Statement) : List (Option String × Binding) :=
  if s.isPaged then
    [(none, .scalar (.int (s.limit?.getD (-1)))), (none, .scalar (.int s.offset))]
  else []

def textBindings (s : Statement) : List (Option String × Binding) :=
  s.conditions.flatMap (fun c =>
      (Placeholder.names c).map fun name => (some name, .ofName s.options.params name))
    ++ (s.order?.elim [] Placeholder.names).map fun name => (some name, .missing)

theorem filterMap_bound?_equals (table : String) (c : Column) (n : Int) :
    (Item.equals table c n).filterMap Item.bound? = [(none, .scalar (.int n))] := by
  simp [Item.equals, Item.column, Item.ofColumn, filterMap_bound?_plain, Item.bound?]

/-- **What a statement binds**, in no particular order. -/
theorem Statement.mem_filterMap_bound?_items {s : Statement} {x : Option String × Binding} :
    x ∈ s.items.filterMap Item.bound? ↔
      x ∈ keyBindings s.filters ∨ x = (none, .scalar (.int 1)) ∨ x ∈ textBindings s
        ∨ x ∈ pageBindings s := by
  have hvisible : ∀ (table : String),
      (if s.options.showHidden then []
        else Item.plain " AND " ++ Item.equals table .visible 1).filterMap Item.bound?
        = visibleBindings s.options.showHidden := by
    intro table
    unfold visibleBindings
    split <;> simp [filterMap_bound?_plain, filterMap_bound?_equals]
  have hpaging : s.paging.filterMap Item.bound? = pageBindings s := by
    unfold paging pageBindings
    split <;> simp [filterMap_bound?_plain, Item.bound?]
  have horder : s.orderItems.filterMap Item.bound?
      = (s.order?.elim [] Placeholder.names).map fun name => (some name, Binding.missing) := by
    unfold orderItems
    cases s.order? with
    | none => exact filterMap_bound?_plain _
    | some order => rw [filterMap_bound?_ofText]; rfl
  have hconditions : (s.conditions.flatMap fun c =>
      Item.plain " AND " ++ Item.ofText s.options.params c).filterMap Item.bound?
      = s.conditions.flatMap fun c =>
        (Placeholder.names c).map fun name => (some name, .ofName s.options.params name) := by
    rw [List.filterMap_flatMap]
    simp only [List.filterMap_append, filterMap_bound?_plain, filterMap_bound?_ofText,
      List.nil_append]
  have hone : x ∈ visibleBindings s.options.showHidden → x = (none, .scalar (.int 1)) := by
    unfold visibleBindings
    split <;> simp
  simp only [items, head, outer, tail, List.filterMap_append, filterMap_bound?_plain,
    filterMap_bound?_predicates, filterMap_bound?_equals, hvisible, hpaging, hconditions, horder,
    List.nil_append, List.append_nil, textBindings, List.mem_append, List.mem_singleton]
  constructor
  · rintro ((((h | h) | (h | h)) | ((h | h) | h)) | h) <;> grind
  · rintro (h | h | (h | h) | h) <;> grind

theorem Statement.named_mem_items_iff {s : Statement} {name : String} {b : Binding} :
    .named name b ∈ s.items ↔ (some name, b) ∈ textBindings s := by
  have hbound : .named name b ∈ s.items ↔ (some name, b) ∈ s.items.filterMap Item.bound? := by
    rw [List.mem_filterMap]
    constructor
    · exact fun h => ⟨_, h, rfl⟩
    · rintro ⟨x, hx, hb⟩
      cases x <;> cases hb
      exact hx
  have hkeys : (some name, b) ∉ keyBindings s.filters := by simp [keyBindings]
  have hpage : (some name, b) ∉ pageBindings s := by
    unfold pageBindings
    split <;> simp
  rw [hbound, mem_filterMap_bound?_items]
  simp [hkeys, hpage]

theorem Statement.mem_itemBindings {s : Statement} {b : Binding} :
    b ∈ itemBindings s.items ↔ ∃ name?, (name?, b) ∈ s.items.filterMap Item.bound? := by
  have hbinding : Item.binding? = fun x => x.bound?.map (·.2) := by
    funext x
    cases x <;> rfl
  rw [itemBindings, hbinding, ← List.map_filterMap, List.mem_map]
  constructor
  · rintro ⟨⟨name?, b⟩, h, rfl⟩
    exact ⟨name?, h⟩
  · rintro ⟨name?, h⟩
    exact ⟨_, h, rfl⟩

end EventCalendar.Listing
