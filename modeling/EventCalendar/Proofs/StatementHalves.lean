import EventCalendar.Proofs.DimensionText
import EventCalendar.Proofs.ParameterMarks

/-!
# Both halves of a statement

A statement has the dimension condition twice: in the query of the best priorities, on the table
`ev`, and in the outer query, on the table `e`. Each has parameters of its own.

* `Statement.exists_slots_eq`: where both conditions stand in the statement.
* `realiased_dimensionSlots`: the inner condition on the table of the outer one.
* `map_renamed_numbered`: numbering that begins later is a renaming.
* `exists_conditionOf?`: both conditions are read alike from the values bound.
* `compiled_halves`: **both halves of a compiled statement say the same**.
-/

set_option autoImplicit false

namespace EventCalendar.Listing

open Sql

/-- The dimension condition on the table with an alias, its parameters numbered after values of the
stems `used`. Parentheses that its place asks for are not part of it. -/
def dimensionSlots (table : String) (used : List String) (f : Filters) : List Slot :=
  numbered used (disjunctionItems table false (predicates f))

namespace Statement

/-- The stems of the values in front of the outer dimension condition, the last one first. -/
def stemsBefore (s : Statement) : List String :=
  "visible" :: ((keyValues s.filters ++ visibleValues s.options.showHidden).map (·.1)).reverse

/-- The dimension condition of the inner query. -/
def innerCondition (s : Statement) : List Slot := dimensionSlots "ev" [] s.filters

/-- The dimension condition of the outer query. -/
def outerCondition (s : Statement) : List Slot := dimensionSlots "e" s.stemsBefore s.filters

end Statement

def chars (s : String) : List Slot := s.toList.map .char

def inParentheses (enclosed : Bool) (slots : List Slot) : List Slot :=
  if enclosed then chars "(" ++ slots ++ chars ")" else slots

/-! ## Where the conditions stand -/

theorem chars_append (s t : String) : chars (s ++ t) = chars s ++ chars t := by
  simp [chars]

theorem stems_plain (s : String) : stems (Item.plain s) = [] := by
  rw [stems_eq_map_fresh?, filterMap_fresh?_plain]
  rfl

theorem stems_disjunctionItems (table : String) (enclosed : Bool) (f : Filters) :
    stems (disjunctionItems table enclosed (predicates f)) = (keyValues f).map (·.1) := by
  rw [stems_eq_map_fresh?, filterMap_fresh?_predicates]

theorem stems_visibilityItems (table : String) (showHidden : Bool) :
    stems (visibilityItems table showHidden) = (visibleValues showHidden).map (·.1) := by
  rw [stems_eq_map_fresh?, visibilityItems, filterMap_fresh?_visibility]

theorem numbered_disjunctionItems (table : String) (enclosed : Bool) (used : List String)
    (f : Filters) :
    numbered used (disjunctionItems table enclosed (predicates f))
      = inParentheses (enclosed && 1 < (predicates f).length) (dimensionSlots table used f) := by
  unfold inParentheses dimensionSlots disjunctionItems
  rw [Bool.false_and, if_neg Bool.false_ne_true]
  split
  · simp only [numbered_append, numbered_plain, stems_plain, List.reverse_nil, List.nil_append]
    rfl
  · rfl

namespace Statement

variable {s : Statement}

theorem exists_numbered_eq (hconditions : s.options.conditions = [])
    (horder : ∀ order, s.options.order = some order → IsUnmarkedOrder order) :
    ∃ (rule rest : List Slot) (used used' : List String),
      numbered [] s.items = chars (selectText ++ "FROM event AS ev \nWHERE ")
        ++ (inParentheses (!s.options.showHidden && 1 < (predicates s.filters).length)
          s.innerCondition
        ++ (numbered used (visibilityItems "ev" s.options.showHidden) ++ (chars joinText
        ++ (chars " \nWHERE (" ++ (rule ++ (chars " OR m.visible IS NULL) AND "
        ++ (inParentheses (1 < (predicates s.filters).length) s.outerCondition
        ++ (numbered used' (visibilityItems "e" s.options.showHidden)
        ++ (chars " ORDER BY " ++ rest))))))))) := by
  have hmodule : stems (Item.equals "m" .visible 1) = ["visible"] := rfl
  have hbefore : s.stemsBefore = ["visible"].reverse
      ++ (((visibleValues s.options.showHidden).map (·.1)).reverse
        ++ (((keyValues s.filters).map (·.1)).reverse ++ [])) := by
    simp [stemsBefore]
  rw [items_eq hconditions horder]
  simp only [numbered_append, numbered_plain, numbered_disjunctionItems, stems_plain,
    stems_disjunctionItems, stems_visibilityItems, hmodule, List.reverse_nil, List.nil_append]
  rw [← hbefore, Bool.true_and]
  exact ⟨_, _, _, _, rfl⟩

/-- **Where both conditions stand**: the inner one after the table of the inner query and in front
of its visibility test, or of its groups; the outer one after the rule for the module and in front
of the visibility test, or of the order. -/
theorem exists_slots_eq (hconditions : s.options.conditions = [])
    (horder : ∀ order, s.options.order = some order → IsUnmarkedOrder order) :
    ∃ front middle back : List Slot,
      numbered [] s.items = front ++ chars "FROM event AS ev \nWHERE "
        ++ inParentheses (!s.options.showHidden && 1 < (predicates s.filters).length) s.innerCondition
        ++ chars (if s.options.showHidden then " GROUP BY " else " AND ev.visible = ")
        ++ middle ++ chars " OR m.visible IS NULL) AND "
        ++ inParentheses (1 < (predicates s.filters).length) s.outerCondition
        ++ chars (if s.options.showHidden then " ORDER BY " else " AND e.visible = ") ++ back := by
  obtain ⟨rule, rest, used, used', heq⟩ := exists_numbered_eq hconditions horder
  obtain ⟨join, hjoin⟩ := exists_joinText_eq
  rw [heq, hjoin, chars_append, chars_append]
  cases s.options.showHidden with
  | true =>
    refine ⟨chars selectText, chars join ++ (chars " \nWHERE (" ++ rule), rest, ?_⟩
    have hnone : ∀ table used, numbered used (visibilityItems table true) = [] := fun _ _ => rfl
    simp only [hnone, List.nil_append, List.append_assoc, if_pos]
  | false =>
    obtain ⟨test, htest⟩ : ∃ test, numbered used (visibilityItems "ev" false)
        = chars " AND ev.visible = " ++ test := ⟨_, rfl⟩
    obtain ⟨test', htest'⟩ : ∃ test', numbered used' (visibilityItems "e" false)
        = chars " AND e.visible = " ++ test' := ⟨_, rfl⟩
    refine ⟨chars selectText, test ++ (chars " GROUP BY " ++ (chars join
      ++ (chars " \nWHERE (" ++ rule))), test' ++ (chars " ORDER BY " ++ rest), ?_⟩
    simp only [htest, htest', List.append_assoc, Bool.false_eq_true, if_false]

end Statement

/-! ## Renaming -/

/-- The text on the table `e`: the alias `ev` of columns is replaced. -/
def realiased : List Slot → List Slot
  | [] => []
  | .char 'e' :: .char 'v' :: .char '.' :: rest => .char 'e' :: .char '.' :: realiased rest
  | x :: rest => x :: realiased rest

def Slot.renamed (rename : String → String) : Slot → Slot
  | .char c => .char c
  | .parameter p => .parameter { p with name := rename p.name }

/-- The second items are the first ones with the alias replaced, whatever follows them. -/
structure Realiased (xs ys : List Item) : Prop where
  stems : stems xs = stems ys
  slots : ∀ used rest, realiased (numbered used xs ++ rest) = numbered used ys ++ realiased rest

/-- Text without a point has no alias in it, if a blank follows. -/
theorem realiased_append_blank {w : List Char} (hw : ∀ c ∈ w, c ≠ '.') (rest : List Slot) :
    realiased (w.map .char ++ .char ' ' :: rest) = w.map .char ++ .char ' ' :: realiased rest := by
  induction w with
  | nil => rfl
  | cons c w ih =>
    obtain ⟨-, hw⟩ := List.forall_mem_cons.1 hw
    rw [List.map_cons, List.cons_append, List.cons_append, ← ih hw, realiased]
    rintro after heq hrest
    -- The alias would take the next two characters.
    match w, hrest with
    | [_], hrest => cases hrest
    | _ :: d :: _, hrest =>
      cases hrest
      exact hw '.' (by simp) rfl

theorem realiased_column (c : Column) (rest : List Slot) :
    realiased (chars ("ev" ++ "." ++ c.label) ++ .char ' ' :: rest)
      = chars ("e" ++ "." ++ c.label) ++ .char ' ' :: realiased rest := by
  have hpoint : ∀ d ∈ c.label.toList, d ≠ '.' := by
    rintro d hd rfl
    exact absurd ((isIdentifier_label c).2 '.' hd) (by decide)
  rw [chars_append _ c.label, chars_append _ c.label, List.append_assoc, List.append_assoc]
  exact congrArg (fun xs => .char 'e' :: .char '.' :: xs) (realiased_append_blank hpoint rest)

namespace Realiased

variable {xs ys xs' ys' : List Item}

theorem append (h : Realiased xs ys) (h' : Realiased xs' ys') :
    Realiased (xs ++ xs') (ys ++ ys') := by
  refine ⟨by rw [stems_append, stems_append, h.stems, h'.stems], fun used rest => ?_⟩
  rw [numbered_append, numbered_append, List.append_assoc, h.slots, h'.slots, h.stems,
    List.append_assoc]

/-- The test of a column; after a blank the operator has no alias in it. -/
theorem test {w : String} (hw : ∀ rest, realiased (chars w ++ rest) = chars w ++ realiased rest)
    {operator : String} (hoperator : operator = " " ++ w) (c : Column) (b : Binding) :
    Realiased (Item.column "ev" c ++ Item.plain operator ++ [.ofColumn c b])
      (Item.column "e" c ++ Item.plain operator ++ [.ofColumn c b]) := by
  subst hoperator
  refine ⟨by simp [stems_append, Item.column, stems_plain], fun used rest => ?_⟩
  have hnumbered : ∀ table, numbered used
      (Item.column table c ++ Item.plain (" " ++ w) ++ [.ofColumn c b])
        = chars (table ++ "." ++ c.label) ++ .char ' ' :: (chars w
          ++ [.parameter ⟨generatedName c.label (used.count c.label + 1), true, b⟩]) := by
    intro table
    simp only [Item.column, numbered_append, numbered_plain, stems_plain, List.reverse_nil,
      List.nil_append, List.append_assoc, String.toList_append, List.map_append]
    simp [chars, numbered, Item.ofColumn]
  rw [hnumbered, hnumbered]
  simp only [List.append_assoc, List.cons_append, List.nil_append]
  rw [realiased_column, hw]
  rfl

theorem keyTest (k : KeyTest) : Realiased (k.items "ev") (k.items "e") := by
  cases k with
  | isZero key => exact .test (w := "= ") (fun _ => rfl) rfl key _
  | nonzero key => exact .test (w := "!= ") (fun _ => rfl) rfl key _
  | among key ids => exact .test (w := "IN ") (fun _ => rfl) rfl key _

theorem joined {α : Type} {separator : String}
    (hseparator : Realiased (Item.plain separator) (Item.plain separator)) {f g : α → List Item}
    {xs : List α} (h : ∀ x ∈ xs, Realiased (f x) (g x)) :
    Realiased (Item.joined separator (xs.map f)) (Item.joined separator (xs.map g)) := by
  induction xs with
  | nil => exact ⟨rfl, fun _ _ => rfl⟩
  | cons x xs ih =>
    obtain ⟨hx, h⟩ := List.forall_mem_cons.1 h
    cases xs with
    | nil => exact hx
    | cons y xs => exact (hx.append hseparator).append (ih h)

end Realiased

/-- **The inner condition on the table of the outer one.** -/
theorem realiased_dimensionSlots (used : List String) (f : Filters) :
    realiased (dimensionSlots "ev" used f) = dimensionSlots "e" used f := by
  have h : Realiased (disjunctionItems "ev" false (predicates f))
      (disjunctionItems "e" false (predicates f)) :=
    .joined ⟨rfl, fun _ _ => rfl⟩ fun p _ => .joined ⟨rfl, fun _ _ => rfl⟩ fun k _ => .keyTest k
  simpa [dimensionSlots, realiased] using h.slots used []

theorem map_renamed_numbered {rename : String → String} {used : List String}
    (hrename : ∀ stem n, rename (generatedName stem n) = generatedName stem (n + used.count stem))
    {items : List Item} (hnamed : ∀ name b, .named name b ∉ items) (seen : List String) :
    (numbered seen items).map (Slot.renamed rename) = numbered (seen ++ used) items := by
  induction items generalizing seen with
  | nil => rfl
  | cons x items ih =>
    have hnamed' := fun name b h => hnamed name b (List.mem_cons_of_mem _ h)
    cases x with
    | char c => exact congrArg (_ :: ·) (ih hnamed' seen)
    | named name b => exact absurd List.mem_cons_self (hnamed name b)
    | fresh stem b =>
      have hcount : (seen ++ used).count stem + 1 = seen.count stem + 1 + used.count stem := by
        rw [List.count_append]
        omega
      rw [numbered, numbered, List.map_cons, ih hnamed', hcount, ← hrename]
      rfl

theorem exists_rename (used : List String) : ∃ rename : String → String,
    ∀ stem n, rename (generatedName stem n) = generatedName stem (n + used.count stem) := by
  have hinjective : Function.Injective fun x : String × Nat => generatedName x.1 x.2 :=
    fun x y h => Prod.ext (generatedName_inj h).1 (generatedName_inj h).2
  exact ⟨Function.extend _ (fun x : String × Nat => generatedName x.1 (x.2 + used.count x.1)) id,
    fun stem n => hinjective.extend_apply _ _ (stem, n)⟩

/-! ## Reading -/

/-- A piece of text with the value that its parameter's name is bound to. -/
def Slot.pieces (bindings : List (String × Binding)) : Slot → List Piece
  | .char c => [.char c]
  | .parameter p => ((bindings.lookup p.name).getD .missing).pieces

/-- The condition that a text is with the values that its names are bound to. -/
def conditionOf? (bindings : List (String × Binding)) (slots : List Slot) : Option Expr :=
  (Token.ofPieces (slots.flatMap (Slot.pieces bindings))).bind wholeCondition?

theorem flatMap_pieces_numbered {bindings : List (String × Binding)} {used : List String}
    {items : List Item}
    (h : ∀ p ∈ parametersAfter used items, bindings.lookup p.name = some p.binding) :
    (numbered used items).flatMap (Slot.pieces bindings) = piecesOf items := by
  induction items generalizing used with
  | nil => rfl
  | cons x items ih =>
    cases x with
    | char c => exact congrArg (_ :: ·) (ih h)
    | named name b =>
      rw [parametersAfter_named] at h
      obtain ⟨hb, h⟩ := List.forall_mem_cons.1 h
      rw [numbered, List.flatMap_cons, ih h, Slot.pieces, hb]
      rfl
    | fresh stem b =>
      rw [parametersAfter_fresh] at h
      obtain ⟨hb, h⟩ := List.forall_mem_cons.1 h
      rw [numbered, List.flatMap_cons, ih h, Slot.pieces, hb]
      rfl

/-- A dimension condition is read from its values, whatever their names. -/
theorem exists_conditionOf? {f : Filters} (hactive : f.allNone = false) :
    ∃ e : Expr, (f.Fits → ∀ row, e.holds row = (dimensionExpr f).holds row) ∧
      ∀ bindings used,
        (∀ p, .parameter p ∈ dimensionSlots "e" used f →
          bindings.lookup p.name = some p.binding) →
        conditionOf? bindings (dimensionSlots "e" used f) = some e := by
  obtain ⟨e, hparses, hholds⟩ := exists_dimension_reading hactive
  refine ⟨e, hholds, fun bindings used h => ?_⟩
  have hparameters : ∀ p ∈ parametersAfter used (disjunctionItems "e" false (predicates f)),
      bindings.lookup p.name = some p.binding := by
    intro p hp
    obtain ⟨x, hx, hparameter⟩ := List.mem_filterMap.1 hp
    cases x <;> cases hparameter
    exact h p hx
  rw [conditionOf?, dimensionSlots, flatMap_pieces_numbered hparameters, ofPieces_dimension,
    Option.bind_some, wholeCondition?_eq_some hparses]

theorem parameter_mem_realiased_iff {p : Parameter} {slots : List Slot} :
    .parameter p ∈ realiased slots ↔ .parameter p ∈ slots := by
  fun_induction realiased slots <;> simp_all

/-! ## Both halves -/

/-- Both halves of a statement go together in its compiled form. -/
structure Statement.InStep (s : Statement) (r : Rendered) : Prop where
  /-- The text names each generated parameter once. -/
  marked : markedNames r.sql.toList = (generatedParameters s.items).map (·.name)
  distinct : (markedNames r.sql.toList).Nodup
  /-- These names are bound, and no others. -/
  bindings : r.bindings = (generatedParameters s.items).map fun p => (p.name, p.binding)
  /-- The text has the inner dimension condition on the table of the inner query, in front of its
  visibility test or its groups, and the outer one after the rule for the module, in front of the
  visibility test or the order. -/
  placed : ∃ front middle back : List Slot,
    r.sql = textOf (front ++ chars "FROM event AS ev \nWHERE "
      ++ inParentheses (!s.options.showHidden && 1 < (predicates s.filters).length) s.innerCondition
      ++ chars (if s.options.showHidden then " GROUP BY " else " AND ev.visible = ")
      ++ middle ++ chars " OR m.visible IS NULL) AND "
      ++ inParentheses (1 < (predicates s.filters).length) s.outerCondition
      ++ chars (if s.options.showHidden then " ORDER BY " else " AND e.visible = ") ++ back)
  /-- The parameters of both conditions are the ones that are bound. -/
  bound : ∀ p, .parameter p ∈ s.innerCondition ++ s.outerCondition →
    r.bindings.lookup p.name = some p.binding
  independent : ∀ p q, .parameter p ∈ s.innerCondition → .parameter q ∈ s.outerCondition →
    p.name ≠ q.name
  /-- The outer condition is the inner one with the alias replaced and its parameters renamed, stem
  by stem; what a parameter is bound to stays the same. -/
  renamed : ∃ rename : String → String,
    (∀ stem n, rename (generatedName stem n) = generatedName stem (n + s.stemsBefore.count stem)) ∧
    (realiased s.innerCondition).map (Slot.renamed rename) = s.outerCondition
  /-- Both are read as one condition on an event, which says what the predicates say if there are
  cells for all ids. -/
  read : ∃ e : Expr, conditionOf? r.bindings (realiased s.innerCondition) = some e ∧
    conditionOf? r.bindings s.outerCondition = some e ∧
    (s.filters.Fits → ∀ row, e.holds row = (dimensionExpr s.filters).holds row)

theorem mem_inParentheses {x : Slot} {slots : List Slot} (h : x ∈ slots) (enclosed : Bool) :
    x ∈ inParentheses enclosed slots := by
  unfold inParentheses
  split
  · exact List.mem_append_left _ (List.mem_append_right _ h)
  · exact h

theorem name_ne_of_nodup {xs ys : List Slot}
    (h : (((xs ++ ys).filterMap Slot.parameter?).map (·.name)).Nodup) {p q : Parameter}
    (hp : .parameter p ∈ xs) (hq : .parameter q ∈ ys) : p.name ≠ q.name := by
  rw [List.filterMap_append, List.map_append, List.nodup_append] at h
  exact h.2.2 _ (List.mem_map_of_mem (List.mem_filterMap.2 ⟨_, hp, rfl⟩)) _
    (List.mem_map_of_mem (List.mem_filterMap.2 ⟨_, hq, rfl⟩))

theorem Statement.InStep.of_written {s : Statement} (hactive : s.filters.allNone = false)
    (hconditions : s.options.conditions = [])
    (horder : ∀ order, s.options.order = some order → IsUnmarkedOrder order) {r : Rendered}
    (hsql : r.sql = sqlText s.items) (hbindings : r.bindings = Listing.bindings s.items) :
    s.InStep r := by
  have hlegible : Legible s.items := Statement.legible_items hconditions horder
  obtain ⟨front, middle, back, hslots⟩ := s.exists_slots_eq hconditions horder
  have hnames := hlegible.nodup_names
  have hmarked : markedNames r.sql.toList = (generatedParameters s.items).map (·.name) := by
    rw [hsql, hlegible.markedNames_sqlText, hlegible.bindings_eq, List.map_map]
    rfl
  have hbound : ∀ p, .parameter p ∈ s.innerCondition ++ s.outerCondition →
      r.bindings.lookup p.name = some p.binding := by
    intro p hp
    have hmem : .parameter p ∈ numbered [] s.items := by
      rw [hslots]
      rcases List.mem_append.1 hp with hp | hp <;> simp [mem_inParentheses hp]
    have hparameter : p ∈ parametersOf s.items := List.mem_filterMap.2 ⟨_, hmem, rfl⟩
    rw [hbindings]
    exact lookup_bindings_of_isGenerated hlegible.clash?_eq_none hparameter
      (hlegible.isGenerated hparameter)
  obtain ⟨rename, hrename⟩ := exists_rename s.stemsBefore
  obtain ⟨e, hholds, hread⟩ := exists_conditionOf? hactive
  have hrealiased : realiased s.innerCondition = dimensionSlots "e" [] s.filters :=
    realiased_dimensionSlots [] s.filters
  refine ⟨hmarked, ?_, hbindings.trans hlegible.bindings_eq, ⟨front, middle, back, ?_⟩, hbound, ?_,
    ⟨rename, hrename, ?_⟩, e, ?_, ?_, hholds⟩
  · rw [hmarked, hlegible.generatedParameters_eq]
    exact hnames
  · rw [hsql, ← hslots]
    rfl
  · intro p q hp hq
    rw [parametersOf, hslots, List.append_assoc, List.append_assoc] at hnames
    exact name_ne_of_nodup hnames (by simp [mem_inParentheses hp]) (by simp [mem_inParentheses hq])
  · have hnamed := (legible_disjunction (show Unmarked "e" by decide) false
      (predicates s.filters)).named_notMem
    rw [hrealiased]
    exact map_renamed_numbered hrename hnamed []
  · rw [hrealiased]
    refine hread _ _ fun p hp => hbound p (List.mem_append_left _ ?_)
    rwa [← parameter_mem_realiased_iff, hrealiased]
  · exact hread _ _ fun p hp => hbound p (List.mem_append_right _ hp)

/-- **Both halves of a compiled statement say the same.** With some dimension active, no conditions,
and an order that marks no parameters, a statement is compiled unless its page is refused. Its text
names each parameter once, and nothing else is bound. The dimension condition of the outer query is
that of the inner one under other names of parameters, which are bound to the same values, so both
hold of the same rows. -/
theorem compiled_halves {f : Filters} {o : Options} (hactive : f.allNone = false)
    (hconditions : o.conditions = [])
    (horder : ∀ order, o.order = some order → IsUnmarkedOrder order) :
    (∀ e, checkPage o = .error e → compiled f o = .error (.plan (.service e))) ∧
    (checkPage o = .ok () →
      ∃ r, compiled f o = .ok (some r) ∧ (Statement.mk f o).InStep r) := by
  refine ⟨fun e he => compiled_of_checkPage he, fun hpage => ?_⟩
  have hlegible : Legible (Statement.mk f o).items :=
    Statement.legible_items (s := .mk f o) hconditions horder
  have horphan : orphan? o = none := by rw [orphan?, hconditions]; rfl
  obtain ⟨r, hwritten, hsql, hbindings⟩ := hlegible.exists_written
  refine ⟨r, ?_, .of_written (s := .mk f o) hactive hconditions horder hsql hbindings⟩
  rw [compiled_eq hpage hactive, horphan]
  exact hwritten

/-- The second page of five of all users' own events and the events of one course, by name. -/
theorem compiled_halves_of_secondPage :
    ∃ r, compiled ⟨.everyone, .nobody, .ofIds [5], .nobody⟩
        { Options.default with order := some "e.name DESC", offset := some 5, limit := some 5 }
        = .ok (some r) ∧
      (Statement.mk ⟨.everyone, .nobody, .ofIds [5], .nobody⟩
        { Options.default with
          order := some "e.name DESC", offset := some 5, limit := some 5 }).InStep r := by
  have horder : ∀ order, some "e.name DESC" = some order → IsUnmarkedOrder order := by
    rintro _ ⟨⟩
    simp [IsUnmarkedOrder, NoMark, Text.backslash]
  exact (compiled_halves (f := ⟨.everyone, .nobody, .ofIds [5], .nobody⟩)
    (o := { Options.default with order := some "e.name DESC", offset := some 5, limit := some 5 })
    rfl rfl horder).2 rfl

end EventCalendar.Listing
