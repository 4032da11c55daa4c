import EventCalendar.Proofs.CompiledStatement

/-!
# Parameters that a text marks

In the text of a statement a colon marks a parameter, and `POSTCOMPILE_` in a bracket marks one
whose value is a list. Which names a text marks (`markedNames`) can be told from the text alone if
no other character of it looks like a mark and every name ends where its parameter does (`Legible`):

* `markedNames_numbered`: the names that a text marks are those of its parameters, in order.
* `Legible.bindings_eq`: each parameter of a legible text is bound under a name of its own.
* `Legible.markedNames_sqlText`: **a legible text marks each parameter once**, and the names bound
  are the marked ones.
* `Statement.legible_items`: a statement without conditions is legible.
-/

set_option autoImplicit false

namespace EventCalendar.Listing

open Placeholder (IsIdentifier NoWord takeWhile_run isIdentifier_of_ascii ne_colon_of_isWord)

/-- The name of the parameter that a character marks in front of a text. -/
def markedName? (c : Char) (rest : List Char) : Option String :=
  if c = ':' then some (String.ofList (rest.takeWhile Text.isWord))
  else if c = '[' then
    ("POSTCOMPILE_".toList.isPrefixOf? rest).map fun name =>
      String.ofList (name.takeWhile Text.isWord)
  else none

/-- The names of the parameters that a text marks, one for each mark. -/
def markedNames : List Char → List String
  | [] => []
  | c :: rest => (markedName? c rest).toList ++ markedNames rest

def NoMark (c : Char) : Prop := c ≠ ':' ∧ c ≠ '['

instance (c : Char) : Decidable (NoMark c) := inferInstanceAs (Decidable (_ ∧ _))

def Unmarked (s : String) : Prop := ∀ c ∈ s.toList, NoMark c

instance (s : String) : Decidable (Unmarked s) :=
  decidable_of_iff (s.toList.all fun c => decide (NoMark c)) (by simp [Unmarked])

/-- No word character is the next one. -/
def Apart (items : List Item) : Prop :=
  ∀ x, items.head? = some x → ∃ c, x = .char c ∧ Text.isWord c = false

/-- The characters are no marks, and all values have generated names, each of which can be told from
what follows it. -/
inductive Legible : List Item → Prop
  | nil : Legible []
  | char {c : Char} {items : List Item} : NoMark c → Legible items → Legible (.char c :: items)
  | fresh {stem : String} {b : Binding} {items : List Item} : IsIdentifier stem.toList →
    Apart items → Legible items → Legible (.fresh stem b :: items)

/-! ## Marks of a text -/

theorem noMark_of_isWord {c : Char} (h : Text.isWord c = true) : NoMark c := by
  refine ⟨ne_colon_of_isWord h, ?_⟩
  rintro rfl
  exact absurd h (by decide)

theorem markedNames_append {s : List Char} (h : ∀ c ∈ s, NoMark c) (t : List Char) :
    markedNames (s ++ t) = markedNames t := by
  induction s with
  | nil => rfl
  | cons c s ih =>
    obtain ⟨hc, h⟩ := List.forall_mem_cons.1 h
    rw [List.cons_append, markedNames, ih h, markedName?, if_neg hc.1, if_neg hc.2]
    rfl

theorem isIdentifier_generatedName {stem : String} (h : IsIdentifier stem.toList) (n : Nat) :
    IsIdentifier (generatedName stem n).toList := by
  have hdigit : ∀ c ∈ Nat.toDigits 10 n, Text.isWord c = true := by
    refine (isIdentifier_of_ascii Nat.toDigits_ne_nil fun c hc => ?_).2
    have hd : c.isDigit = true := Nat.isDigit_of_mem_toDigits (by decide) (by decide) hc
    refine ⟨?_, by simp [Char.isAlphanum, hd]⟩
    exact Nat.lt_of_le_of_lt (Char.isDigit_iff_toNat.1 hd).2 (by decide)
  rw [toList_generatedName]
  refine ⟨by simp, fun c hc => ?_⟩
  rcases List.mem_append.1 hc with hc | hc
  · exact h.2 c hc
  · rcases List.mem_cons.1 hc with rfl | hc
    · decide
    · exact hdigit c hc

theorem markedNames_parameter {p : Parameter} (hname : IsIdentifier p.name.toList) {t : List Char}
    (ht : NoWord t) :
    markedNames ((Slot.parameter p).text.toList ++ t) = p.name :: markedNames t := by
  have hword : ∀ c ∈ p.name.toList, NoMark c := fun c hc => noMark_of_isWord (hname.2 c hc)
  cases hb : p.binding.isExpanding with
  | false =>
    have htext : (Slot.parameter p).text.toList ++ t = ':' :: (p.name.toList ++ t) := by
      simp [Slot.text, hb]
    rw [htext, markedNames, markedNames_append hword, markedName?, if_pos rfl,
      takeWhile_run hname.2 ht, String.ofList_toList]
    rfl
  | true =>
    have hclosing : NoWord (']' :: ')' :: t) := fun c hc => by
      cases hc
      decide
    have htext : (Slot.parameter p).text.toList ++ t
        = "(__".toList ++ '[' :: ("POSTCOMPILE_".toList ++ (p.name.toList ++ ']' :: ')' :: t)) := by
      simp [Slot.text, hb]
    rw [htext, markedNames_append (by simp [NoMark]), markedNames,
      markedNames_append (by simp [NoMark]), markedNames_append hword, markedName?,
      if_neg (by decide), if_pos rfl]
    have hmark : ∀ u : List Char, "POSTCOMPILE_".toList.isPrefixOf? ("POSTCOMPILE_".toList ++ u)
        = some u := fun u => by simp [List.isPrefixOf?]
    rw [hmark, Option.map_some, takeWhile_run hname.2 hclosing, String.ofList_toList]
    exact congrArg (p.name :: ·) (markedNames_append (s := [']', ')']) (by simp [NoMark]) t)

def textOf (slots : List Slot) : String := String.join (slots.map Slot.text)

theorem toList_textOf_cons (x : Slot) (xs : List Slot) :
    (textOf (x :: xs)).toList = x.text.toList ++ (textOf xs).toList := by
  simp [textOf]

theorem toList_textOf_char (c : Char) (xs : List Slot) :
    (textOf (.char c :: xs)).toList = [c] ++ (textOf xs).toList := by
  simp [textOf, Slot.text]

theorem noWord_textOf {items : List Item} (h : Apart items) (used : List String) :
    NoWord (textOf (numbered used items)).toList := by
  intro d hd
  cases items with
  | nil => cases hd
  | cons x items =>
    obtain ⟨c, rfl, hc⟩ := h x rfl
    rw [numbered, toList_textOf_char] at hd
    cases hd
    exact hc

/-- **The names that a legible text marks** are those of its parameters, in order. -/
theorem markedNames_numbered {items : List Item} (h : Legible items) (used : List String) :
    markedNames (textOf (numbered used items)).toList
      = (parametersAfter used items).map (·.name) := by
  induction h generalizing used with
  | nil => rfl
  | @char c items hc _ ih =>
    rw [parametersAfter_char, ← ih used, numbered, toList_textOf_char,
      markedNames_append (by simpa using hc)]
  | fresh hstem hapart _ ih =>
    rw [parametersAfter_fresh, List.map_cons, ← ih, numbered, toList_textOf_cons]
    exact markedNames_parameter (isIdentifier_generatedName hstem _) (noWord_textOf hapart _)

/-! ## Legible items -/

section
variable {items rest : List Item}

theorem apart_nil : Apart [] := fun _ hx => nomatch hx

theorem apart_plain {s : String} (h : s.toList.head?.map Text.isWord = some false)
    (rest : List Item) : Apart (Item.plain s ++ rest) := by
  intro x hx
  obtain ⟨c, hc, hword⟩ := Option.map_eq_some_iff.1 h
  refine ⟨c, ?_, hword⟩
  rw [List.head?_append, Item.plain, List.head?_map, hc] at hx
  exact (Option.some.inj hx).symm

theorem Legible.append (h : Legible items) (hrest : Legible rest) (hapart : Apart rest) :
    Legible (items ++ rest) := by
  induction h with
  | nil => exact hrest
  | char hc _ ih => exact .char hc ih
  | @fresh stem b items hstem hx _ ih =>
    refine .fresh hstem ?_ ih
    cases items with
    | nil => exact hapart
    | cons y items => exact hx

theorem legible_plain_append {s : String} (hs : Unmarked s) (hrest : Legible rest) :
    Legible (Item.plain s ++ rest) := by
  revert hs
  unfold Unmarked Item.plain
  induction s.toList with
  | nil => exact fun _ => hrest
  | cons c cs ih =>
    intro h
    obtain ⟨hc, h⟩ := List.forall_mem_cons.1 h
    exact .char hc (ih h)

theorem legible_plain {s : String} (hs : Unmarked s) : Legible (Item.plain s) := by
  simpa using legible_plain_append hs .nil

theorem Legible.isGenerated (h : Legible items) {used : List String} {p : Parameter}
    (hp : p ∈ parametersAfter used items) : p.isGenerated = true := by
  induction h generalizing used with
  | nil => cases hp
  | char _ _ ih => exact ih hp
  | fresh _ _ _ ih =>
    rw [parametersAfter_fresh, List.mem_cons] at hp
    rcases hp with rfl | hp
    · rfl
    · exact ih hp

theorem Legible.named_notMem (h : Legible items) (name : String) (b : Binding) :
    .named name b ∉ items := by
  intro hmem
  have hp : ⟨name, false, b⟩ ∈ parametersAfter [] items := (mem_parametersAfter_iff rfl).2 hmem
  cases h.isGenerated hp

end

theorem isIdentifier_label (c : Column) : IsIdentifier c.label.toList := by
  cases c <;> exact isIdentifier_of_ascii (by decide) (by simp [Column.label])

theorem unmarked_label (c : Column) : Unmarked c.label :=
  fun d hd => noMark_of_isWord ((isIdentifier_label c).2 d hd)

theorem Unmarked.append {s t : String} (hs : Unmarked s) (ht : Unmarked t) : Unmarked (s ++ t) := by
  intro c hc
  rw [String.toList_append, List.mem_append] at hc
  exact hc.elim (hs c) (ht c)

section
variable {table : String} (htable : Unmarked table)
include htable

theorem legible_test {operator : String} (h : Unmarked operator) (c : Column) (b : Binding) :
    Legible (Item.column table c ++ Item.plain operator ++ [.ofColumn c b]) := by
  have hcolumn : Unmarked (table ++ "." ++ c.label) :=
    (htable.append (by decide)).append (unmarked_label c)
  rw [List.append_assoc]
  exact legible_plain_append hcolumn
    (legible_plain_append h (.fresh (isIdentifier_label c) apart_nil .nil))

theorem legible_keyTest (k : KeyTest) : Legible (k.items table) := by
  cases k with
  | isZero key => exact legible_test htable (by decide) key _
  | nonzero key => exact legible_test htable (by decide) key _
  | among key ids => exact legible_test htable (by decide) key _

omit htable in
theorem legible_joined {separator : String} (hs : Unmarked separator)
    (hapart : separator.toList.head?.map Text.isWord = some false) {xss : List (List Item)}
    (h : ∀ xs ∈ xss, Legible xs) : Legible (Item.joined separator xss) := by
  induction xss with
  | nil => exact .nil
  | cons xs xss ih =>
    obtain ⟨hxs, h⟩ := List.forall_mem_cons.1 h
    cases xss with
    | nil => exact hxs
    | cons ys xss =>
      rw [Item.joined, List.append_assoc]
      · exact hxs.append (legible_plain_append hs (ih h)) (apart_plain hapart _)
      · simp

theorem legible_disjunction (enclosed : Bool) (ps : List Predicate) :
    Legible (disjunctionItems table enclosed ps) := by
  have hpredicate : ∀ xs ∈ ps.map (Predicate.items table), Legible xs := by
    intro xs hxs
    obtain ⟨p, -, rfl⟩ := List.mem_map.1 hxs
    refine legible_joined (by decide) (by decide) fun ys hys => ?_
    obtain ⟨k, -, rfl⟩ := List.mem_map.1 hys
    exact legible_keyTest htable k
  have hinner : Legible (Item.joined " OR " (ps.map (Predicate.items table))) :=
    legible_joined (by decide) (by decide) hpredicate
  unfold disjunctionItems
  split
  · rw [List.append_assoc]
    refine legible_plain_append (by decide) (hinner.append (legible_plain (by decide)) ?_)
    simpa using apart_plain (s := ")") (by decide) []
  · exact hinner

end

/-! ## Names of legible texts -/

theorem bindingsOf_of_nodup {ps : List Parameter} (h : (ps.map (·.name)).Nodup) :
    bindingsOf ps = ps.map fun p => (p.name, p.binding) := by
  induction ps with
  | nil => rfl
  | cons p ps ih =>
    obtain ⟨hp, h⟩ := List.nodup_cons.1 h
    have hnone : (bindingsOf ps).lookup p.name = none := by
      refine List.lookup_eq_none_iff.2 fun x hx => ?_
      have hmem := mem_names_bindingsOf.1 (List.mem_map_of_mem (f := (·.1)) hx)
      have hne : p.name ≠ x.1 := fun heq => hp (by simpa [heq] using hmem)
      simpa using hne
    rw [bindingsOf, hnone, if_neg (by simp), ih h, List.map_cons]

section
variable {items : List Item} (h : Legible items)
include h

theorem Legible.clash?_eq_none : clash? items = none :=
  (@clash?_eq_none_iff [] items fun name b hmem => absurd hmem (h.named_notMem name b)).2
    fun name b hmem => absurd hmem (h.named_notMem name b)

theorem Legible.nodup_names : ((parametersOf items).map (·.name)).Nodup := by
  rw [List.Nodup, List.pairwise_map]
  refine (pairwise_parametersOf h.clash?_eq_none).imp_of_mem fun {p q} hp _ hcompatible hname => ?_
  have hgenerated := (hcompatible hname).1
  rw [h.isGenerated hp] at hgenerated
  cases hgenerated

theorem Legible.generatedParameters_eq : generatedParameters items = parametersOf items :=
  List.filter_eq_self.2 fun _ hp => h.isGenerated hp

theorem Legible.bindings_eq :
    bindings items = (generatedParameters items).map fun p => (p.name, p.binding) := by
  rw [bindings, bindingsOf_of_nodup h.nodup_names, h.generatedParameters_eq]

/-- **A legible text marks each parameter once**, and the names bound are the marked ones. -/
theorem Legible.markedNames_sqlText :
    markedNames (sqlText items).toList = (bindings items).map (·.1) := by
  rw [show sqlText items = textOf (numbered [] items) from rfl, markedNames_numbered h,
    h.bindings_eq, h.generatedParameters_eq, List.map_map]
  rfl

theorem Legible.exists_written : ∃ r, written items = .ok (some r) ∧ r.sql = sqlText items ∧
    r.bindings = bindings items := by
  rw [written, render, h.clash?_eq_none]
  exact ⟨_, rfl, rfl, rfl⟩

end

/-! ## Statements -/

/-- The text has no marks, and nothing in it is escaped. -/
def IsUnmarkedOrder (order : String) : Prop :=
  ∀ c ∈ order.toList, NoMark c ∧ c ≠ Text.backslash

/-- The test of visibility that follows a dimension condition. -/
def visibilityItems (table : String) (showHidden : Bool) : List Item :=
  if showHidden then [] else Item.plain " AND " ++ Item.equals table .visible 1

def selectText : String :=
  "SELECT " ++ ", ".intercalate (Column.all.map fun c => "e." ++ c.label)
    ++ " \nFROM event AS e JOIN (SELECT ev.modulename AS modulename, "
    ++ "ev.instance AS instance, ev.eventtype AS eventtype, min(ev.priority) AS priority \n"

/-- The text between the queries: how the activities of the inner one are joined with the events. -/
def joinText : String :=
  " GROUP BY " ++ "ev.modulename, ev.instance, ev.eventtype"
    ++ ") AS fe ON e.modulename = fe.modulename AND "
    ++ "e.instance = fe.instance AND e.eventtype = fe.eventtype AND (e.priority = fe.priority OR "
    ++ "e.priority IS NULL AND fe.priority IS NULL) LEFT OUTER JOIN modules AS m "
    ++ "ON e.modulename = m.name"

theorem unmarked_intercalate {separator : String} (hs : Unmarked separator) {xs : List String}
    (h : ∀ x ∈ xs, Unmarked x) : Unmarked (separator.intercalate xs) := by
  induction xs with
  | nil => exact fun c hc => absurd hc (by simp)
  | cons x xs ih =>
    obtain ⟨hx, h⟩ := List.forall_mem_cons.1 h
    cases xs with
    | nil => rwa [String.intercalate_singleton]
    | cons y xs =>
      rw [String.intercalate_cons_cons]
      exact (hx.append hs).append (ih h)

theorem unmarked_selectText : Unmarked selectText := by
  have hcolumns : ∀ x ∈ Column.all.map fun c => "e." ++ c.label, Unmarked x := by
    intro x hx
    obtain ⟨c, -, rfl⟩ := List.mem_map.1 hx
    exact .append (by decide) (unmarked_label c)
  exact (((Unmarked.append (by decide) (unmarked_intercalate (by decide) hcolumns)).append
    (by decide)).append (by decide))

theorem unmarked_joinText : Unmarked joinText := by
  unfold joinText
  refine .append (.append (.append (.append (.append ?_ ?_) ?_) ?_) ?_) ?_
  all_goals decide

theorem exists_joinText_eq : ∃ rest, joinText = " GROUP BY " ++ rest := by
  simp only [joinText, String.append_assoc]
  exact ⟨_, rfl⟩

def Statement.orderText (s : Statement) : String := s.order?.getD defaultOrder

namespace Statement

variable {s : Statement}

theorem legible_visibility {table : String} (htable : Unmarked table) {rest : List Item}
    (h : Legible rest) (hapart : Apart rest) (showHidden : Bool) :
    Legible (visibilityItems table showHidden ++ rest) ∧
      Apart (visibilityItems table showHidden ++ rest) := by
  cases showHidden with
  | true => exact ⟨h, hapart⟩
  | false =>
    rw [visibilityItems, if_neg Bool.false_ne_true, List.append_assoc]
    have htest : Legible (Item.equals table .visible 1) := legible_test htable (by decide) _ _
    exact ⟨legible_plain_append (by decide) (htest.append h hapart), apart_plain (by decide) _⟩

theorem orderItems_eq (horder : ∀ order, s.options.order = some order → IsUnmarkedOrder order) :
    s.orderItems = Item.plain s.orderText ∧ Unmarked s.orderText := by
  unfold orderItems orderText
  cases ho : s.order? with
  | none => exact ⟨rfl, by decide⟩
  | some order =>
    have hunmarked := horder order (Option.mem_filter_iff.1 ho).1
    refine ⟨?_, fun c hc => (hunmarked c hc).1⟩
    simp only [Item.ofText, Placeholder.fragments]
    rw [Placeholder.fragmentsFrom_eq_map_char fun c hc =>
      ⟨(hunmarked c hc).1.1, (hunmarked c hc).2⟩, List.map_map]
    rfl

theorem legible_paging (s : Statement) : Legible s.paging := by
  unfold paging
  split
  · have hparam : IsIdentifier "param".toList := isIdentifier_of_ascii (by decide) (by simp)
    simp only [List.append_assoc, List.singleton_append]
    exact legible_plain_append (by decide) (.fresh hparam (apart_plain (by decide) _)
      (legible_plain_append (by decide) (.fresh hparam apart_nil .nil)))
  · exact .nil

/-- **The parts of a statement without conditions**: both dimension conditions, the visibility
tests, and plain text around them. -/
theorem items_eq (hconditions : s.options.conditions = [])
    (horder : ∀ order, s.options.order = some order → IsUnmarkedOrder order) :
    s.items = Item.plain (selectText ++ "FROM event AS ev \nWHERE ")
      ++ (disjunctionItems "ev" (!s.options.showHidden) (predicates s.filters)
      ++ (visibilityItems "ev" s.options.showHidden
      ++ (Item.plain joinText ++ (Item.plain " \nWHERE (" ++ (Item.equals "m" .visible 1
      ++ (Item.plain " OR m.visible IS NULL) AND "
      ++ (disjunctionItems "e" true (predicates s.filters)
      ++ (visibilityItems "e" s.options.showHidden
      ++ (Item.plain " ORDER BY " ++ (Item.plain s.orderText ++ s.paging)))))))))) := by
  have hnone : s.conditions = [] := by rw [conditions, hconditions]; rfl
  simp only [items, head, outer, tail, hnone, (orderItems_eq horder).1, List.flatMap_nil,
    List.nil_append, List.append_assoc]
  rfl

/-- **A statement without conditions is legible.** -/
theorem legible_items (hconditions : s.options.conditions = [])
    (horder : ∀ order, s.options.order = some order → IsUnmarkedOrder order) :
    Legible s.items := by
  rw [items_eq hconditions horder]
  -- Each part stands in front of what follows it, so the last one comes first.
  obtain ⟨horder, hunmarked⟩ := orderItems_eq horder
  have hending := legible_visibility (show Unmarked "e" by decide)
    (legible_plain_append (s := " ORDER BY ") (by decide)
      (legible_plain_append hunmarked (legible_paging s)))
    (apart_plain (by decide) _) s.options.showHidden
  have houter := (legible_disjunction (show Unmarked "e" by decide) true
    (predicates s.filters)).append hending.1 hending.2
  have hmodule : Legible (Item.equals "m" .visible 1) := legible_test (by decide) (by decide) _ _
  have hrule := hmodule.append
    (legible_plain_append (s := " OR m.visible IS NULL) AND ") (by decide) houter)
    (apart_plain (by decide) _)
  have hjoin : joinText.toList.head?.map Text.isWord = some false := by
    obtain ⟨rest, hrest⟩ := exists_joinText_eq
    rw [hrest, String.toList_append]
    rfl
  have hinner := legible_visibility (show Unmarked "ev" by decide)
    (legible_plain_append unmarked_joinText
      (legible_plain_append (s := " \nWHERE (") (by decide) hrule))
    (apart_plain hjoin _) s.options.showHidden
  exact legible_plain_append (unmarked_selectText.append (by decide))
    ((legible_disjunction (by decide) (!s.options.showHidden) (predicates s.filters)).append
      hinner.1 hinner.2)

end Statement

end EventCalendar.Listing
