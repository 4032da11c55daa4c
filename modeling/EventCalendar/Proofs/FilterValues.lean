import EventCalendar.Proofs.CompiledStatement

/-!
# What a filter is made of

A filter made of a caller value is in a normal form that only the meaning of the value counts for:

* `Value.same_trans_int`: what equals an integer is equal to all that the integer equals.
* `Value.forall_distinct_iff`: a set made of a list has integers only exactly if **every value of
  the list is an integer or equals an earlier one**.
* `FilterSpec.exists_specific?_iff_meansIds`, `FilterSpec.coerce_of_specific`: the two ways to make
  a filter of ids agree.
* `FilterSpec.coerce?_of_sameItems`: collections with the same elements make the same filter.
* `Listing.expanding_generatedParameters`: a statement binds the ids of each filter in their order,
  in both of its queries.
* `FilterSpec.coerce_normalForm`: **the filter of a value**.
-/

set_option autoImplicit false

namespace EventCalendar

namespace Value

/-! ## Sets of values -/

theorem same_int (i : Int) (v : Value) : same (.int i) v = sameNumber (.int i) v := by
  cases v <;> rfl

theorem sameNumber_integer {v w : Value} {i : Int} (hv : v.integer? = some i) :
    sameNumber v w = sameNumber (.int i) w := by
  cases v with
  | bool b =>
    cases hv
    cases w <;> rfl
  | int j =>
    cases hv
    rfl
  | _ => cases hv

theorem sameNumber_int_iff {i : Int} {v : Value} :
    sameNumber (.int i) v = true ↔
      v.integer? = some i ∨ ∃ x, v = .float x ∧ x.equalsInt i = true := by
  cases v with
  | float x => simp [sameNumber, integer?]
  | int j => simp [sameNumber, integer?, eq_comm (a := i)]
  | bool b => simp [sameNumber, integer?, eq_comm (a := i)]
  | _ => simp [sameNumber, integer?]

theorem equalsInt_iff_of_finite {negative : Bool} {m : Nat} {e i : Int} :
    (Binary64.finite negative m e).equalsInt i = true ↔
      (Binary64.finite negative m e).numerator
        = i * (Binary64.finite negative m e).denominator := by
  simp [Binary64.equalsInt]

theorem equalsInt_unique {x : Binary64} {i j : Int} (hi : x.equalsInt i = true)
    (hj : x.equalsInt j = true) : i = j := by
  cases x with
  | finite negative m e =>
    have hpos : (0 : Int) < (Binary64.finite negative m e).denominator := by
      exact_mod_cast (Binary64.finite negative m e).denominator_pos
    rw [equalsInt_iff_of_finite] at hi hj
    exact Int.eq_of_mul_eq_mul_right (Int.ne_of_gt hpos) (hi.symm.trans hj)
  | _ => cases hi

theorem equalsInt_of_compare {x y : Binary64} {i : Int} (hx : x.equalsInt i = true)
    (h : (x.compare? y == some .eq) = true) : y.equalsInt i = true := by
  cases x with
  | finite negative m e =>
    cases y with
    | finite negative' m' e' =>
      have hpos : (0 : Int) < (Binary64.finite negative m e).denominator := by
        exact_mod_cast (Binary64.finite negative m e).denominator_pos
      rw [equalsInt_iff_of_finite] at hx ⊢
      simp only [Binary64.compare?, beq_iff_eq, Option.some.injEq, compare_eq_iff_eq] at h
      rw [hx, Int.mul_right_comm] at h
      exact (Int.eq_of_mul_eq_mul_right (Int.ne_of_gt hpos) h).symm
    | infinite negative' => cases negative' <;> cases h
    | nan => cases h
  | _ => cases hx

/-- **What equals an integer** is equal to all that the integer equals. -/
theorem same_trans_int {i : Int} {v w : Value} (hv : same (.int i) v = true)
    (h : same v w = true) : same (.int i) w = true := by
  rw [same_int] at hv ⊢
  have hnumber : sameNumber v w = true := by
    rcases sameNumber_int_iff.1 hv with hint | ⟨x, rfl, -⟩
    · cases v with
      | bool b => cases w <;> exact h
      | int j => cases w <;> exact h
      | _ => cases hint
    · cases w <;> exact h
  rcases sameNumber_int_iff.1 hv with hint | ⟨x, rfl, hx⟩
  · exact (sameNumber_integer hint).symm.trans hnumber
  · rw [sameNumber_int_iff]
    cases w with
    | float y => exact .inr ⟨y, rfl, equalsInt_of_compare hx hnumber⟩
    | bool b => exact .inl (congrArg some (equalsInt_unique hnumber hx))
    | int j => exact .inl (congrArg some (equalsInt_unique hnumber hx))
    | _ => cases hnumber

theorem distinct_snoc (xs : List Value) (x : Value) :
    distinct (xs ++ [x])
      = if (distinct xs).any (same · x) then distinct xs else distinct xs ++ [x] := by
  rw [distinct, List.foldl_append]
  rfl

theorem mem_of_mem_distinct {xs : List Value} {x : Value} (h : x ∈ distinct xs) : x ∈ xs := by
  induction xs using List.reverseRecOn with
  | nil => exact h
  | append_singleton xs y ih =>
    rw [distinct_snoc] at h
    split at h
    · exact List.mem_append_left _ (ih h)
    · rcases List.mem_append.1 h with h | h
      · exact List.mem_append_left _ (ih h)
      · exact List.mem_append_right _ h

theorem mem_distinct_or {xs : List Value} {x : Value} (h : x ∈ xs) :
    x ∈ distinct xs ∨ ∃ y ∈ distinct xs, same y x = true := by
  induction xs using List.reverseRecOn with
  | nil => cases h
  | append_singleton xs y ih =>
    rw [distinct_snoc]
    split
    · rename_i hany
      rcases List.mem_append.1 h with h | h
      · exact ih h
      · rw [List.mem_singleton.1 h]
        exact .inr (List.any_eq_true.1 hany)
    · rcases List.mem_append.1 h with h | h
      · apply (ih h).imp (List.mem_append_left _)
        intro hsame
        obtain ⟨z, hz, hsame⟩ := hsame
        exact ⟨z, List.mem_append_left _ hz, hsame⟩
      · exact .inl (List.mem_append_right _ h)

/-- Every value is an integer or equals an earlier one. -/
def IntegersFirst (xs : List Value) : Prop :=
  ∀ before x after, xs = before ++ x :: after →
    (∃ i, x = .int i) ∨ ∃ y ∈ before, same y x = true

theorem integersFirst_snoc {xs : List Value} {x : Value} :
    IntegersFirst (xs ++ [x]) ↔
      IntegersFirst xs ∧ ((∃ i, x = .int i) ∨ ∃ y ∈ xs, same y x = true) := by
  constructor
  · intro h
    refine ⟨fun before y after heq => h before y (after ++ [x]) ?_, h xs x [] rfl⟩
    rw [heq, List.append_assoc, List.cons_append]
  · intro h before y after heq
    obtain ⟨hxs, hx⟩ := h
    cases after using List.reverseRecOn with
    | nil =>
      obtain ⟨rfl, hlast⟩ := List.append_inj' heq rfl
      cases hlast
      exact hx
    | append_singleton after z =>
      rw [← List.cons_append, ← List.append_assoc] at heq
      exact hxs before y after (List.append_inj' heq rfl).1

section
variable {xs : List Value} (h : ∀ x ∈ distinct xs, ∃ i, x = .int i)
include h

/-- A value equals one that is kept exactly if it equals one at all. -/
theorem any_same_distinct_iff {x : Value} :
    (distinct xs).any (same · x) = true ↔ ∃ y ∈ xs, same y x = true := by
  rw [List.any_eq_true]
  constructor
  · intro hkept
    obtain ⟨y, hy, hsame⟩ := hkept
    exact ⟨y, mem_of_mem_distinct hy, hsame⟩
  · intro hany
    obtain ⟨y, hy, hsame⟩ := hany
    rcases mem_distinct_or hy with hkept | ⟨z, hz, hzy⟩
    · exact ⟨y, hkept, hsame⟩
    · obtain ⟨i, rfl⟩ := h z hz
      exact ⟨.int i, hz, same_trans_int hzy hsame⟩

theorem int_mem_distinct_iff {i : Int} : .int i ∈ distinct xs ↔ .int i ∈ xs := by
  constructor
  · exact mem_of_mem_distinct
  · intro hmem
    rcases mem_distinct_or hmem with hkept | ⟨y, hy, hsame⟩
    · exact hkept
    · obtain ⟨j, rfl⟩ := h y hy
      rw [same_int, sameNumber_int_iff] at hsame
      rcases hsame with hint | ⟨x, hx, -⟩
      · cases hint
        exact hy
      · cases hx

end

/-- **A set made of a list has integers only** exactly if every value of the list is an integer or
equals an earlier one. -/
theorem forall_distinct_iff {xs : List Value} :
    (∀ x ∈ distinct xs, ∃ i, x = .int i) ↔ IntegersFirst xs := by
  induction xs using List.reverseRecOn with
  | nil =>
    refine iff_of_true (List.forall_mem_nil _) fun before x after heq => ?_
    simp at heq
  | append_singleton xs x ih =>
    rw [integersFirst_snoc, ← ih, distinct_snoc]
    by_cases hany : (distinct xs).any (same · x) = true
    · rw [if_pos hany]
      refine ⟨fun h => ⟨h, .inr ((any_same_distinct_iff h).1 hany)⟩, fun h => h.1⟩
    · rw [if_neg hany, List.forall_mem_append, List.forall_mem_singleton]
      apply and_congr_right
      intro h
      rw [any_same_distinct_iff h] at hany
      exact ⟨.inl, fun hx => hx.resolve_right hany⟩

/-- An integer, or integers in a collection that is not empty. -/
def MeansIds (v : Value) : Prop :=
  (∃ i, v = .int i) ∨ ∃ items, v.items? = some items ∧ items ≠ [] ∧ ∀ x ∈ items, ∃ i, x = .int i

/-- Two collections, of whatever kind, have the same elements. -/
def SameItems (v w : Value) : Prop :=
  ∃ xs ys, v.items? = some xs ∧ w.items? = some ys ∧ ∀ x, x ∈ xs ↔ x ∈ ys

end Value

namespace FilterSpec

/-! ## Filters of ids -/

theorem exists_mapM_id? {items : List Value} (h : ∀ x ∈ items, ∃ i, x = .int i) :
    ∃ ids, items.mapM Value.id? = some ids ∧ items = ids.map .int := by
  induction items with
  | nil => exact ⟨[], rfl, rfl⟩
  | cons x items ih =>
    rw [List.forall_mem_cons] at h
    obtain ⟨⟨i, rfl⟩, h⟩ := h
    obtain ⟨ids, hids, hitems⟩ := ih h
    refine ⟨i :: ids, ?_, by rw [hitems, List.map_cons]⟩
    simp [List.mapM_cons, Value.id?, hids]

/-- **A filter of ids** can be made of an integer and of integers in a collection that is not empty.
-/
theorem exists_specific?_iff_meansIds {v : Value} :
    (∃ f, specific? v = some f) ↔ v.MeansIds := by
  have hcollection : ∀ {v : Value} {items : List Value}, v.id? = none → (∀ i, v ≠ .int i) →
      v.items? = some items → ((∃ f, specific? v = some f) ↔ v.MeansIds) := by
    intro v items hid hint hitems
    simp only [Value.MeansIds, hint, exists_false, false_or, hitems, Option.some.injEq,
      exists_eq_left']
    cases items with
    | nil => simp [specific?, hid, hitems]
    | cons x items => simpa using exists_specific?_iff hid hitems (List.cons_ne_nil x items)
  cases v with
  | int i => exact iff_of_true ⟨_, rfl⟩ (.inl ⟨i, rfl⟩)
  | list items => exact hcollection rfl (by simp) rfl
  | tuple items => exact hcollection rfl (by simp) rfl
  | set items => exact hcollection rfl (by simp) rfl
  | frozenset items => exact hcollection rfl (by simp) rfl
  | _ => simp [specific?, Value.id?, Value.items?, Value.MeansIds]

theorem specific_eq_ok_iff {dimension : String} {v : Value} {f : FilterSpec} :
    specific dimension v = .ok f ↔ specific? v = some f := by
  unfold specific
  split <;> simp_all

theorem specific_of_not_meansIds {dimension : String} {v : Value} (h : ¬ v.MeansIds) :
    specific dimension v = .error (.invalidFilter dimension v) := by
  cases hv : specific? v with
  | none => rw [specific, hv]
  | some f => exact absurd (exists_specific?_iff_meansIds.1 ⟨f, hv⟩) h

/-- **The two ways to make a filter of ids agree.** -/
theorem coerce?_of_meansIds {v : Value} (h : v.MeansIds) : coerce? v = specific? v := by
  rcases h with ⟨i, rfl⟩ | ⟨items, hitems, hne, -⟩
  · rfl
  · cases v with
    | list | tuple | set | frozenset =>
      cases hitems
      simp [coerce?, Value.items?, hne]
    | _ => cases hitems

theorem coerce_of_specific {dimension : String} {v : Value} {f : FilterSpec}
    (h : specific dimension v = .ok f) : coerce dimension v = .ok f := by
  rw [specific_eq_ok_iff] at h
  rw [coerce_eq_ok_iff, coerce?_of_meansIds (exists_specific?_iff_meansIds.1 ⟨f, h⟩), h]

/-! ## Normal forms -/

/-- Nothing or everything, without ids, or some ids. -/
def IsNormal (f : FilterSpec) : Prop :=
  f = nobody ∨ f = everyone ∨ f.mode = .specific ∧ f.ids.toList ≠ []

def value (f : FilterSpec) : Value := .filter f.mode f.ids.toList

theorem coerce?_value (f : FilterSpec) : coerce? f.value = some f := by
  have hids : IdSet.ofList f.ids.toList = f.ids := IdSet.ext_mem fun _ => IdSet.mem_toList_ofList
  rw [value, coerce?, hids]

theorem coerce?_items {v : Value} {items : List Value} (hitems : v.items? = some items)
    (h : ∀ x ∈ items, ∃ i, x = .int i) :
    ∃ ids, items = ids.map .int ∧ coerce? v = some (if ids = [] then nobody else ofIds ids) := by
  obtain ⟨ids, hids, rfl⟩ := exists_mapM_id? h
  refine ⟨ids, rfl, ?_⟩
  cases v with
  | list | tuple | set | frozenset =>
    cases hitems
    cases ids with
    | nil => rfl
    | cons i ids => simp_all [coerce?, specific?, Value.items?, Value.id?]
  | _ => cases hitems

theorem ofIds_isNormal {ids : List Int} (h : ids ≠ []) : (ofIds ids).IsNormal := by
  obtain ⟨i, ids, rfl⟩ := List.exists_cons_of_ne_nil h
  refine .inr (.inr ⟨rfl, fun hnil => ?_⟩)
  have hmem : i ∈ (IdSet.ofList (i :: ids)).toList :=
    IdSet.mem_toList_ofList.2 List.mem_cons_self
  rw [show (IdSet.ofList (i :: ids)).toList = [] from hnil] at hmem
  cases hmem

/-- **A filter is in normal form** unless it was built by hand. -/
theorem isNormal_of_coerce? {v : Value} {f : FilterSpec} (h : coerce? v = some f)
    (hv : ∀ mode listed, v ≠ .filter mode listed) : f.IsNormal := by
  have hmeans := exists_coerce?_iff.1 ⟨f, h⟩
  have hcollection : ∀ items, v.items? = some items → (∀ x ∈ items, ∃ i, x = .int i) →
      f.IsNormal := by
    intro items hitems hints
    obtain ⟨ids, -, hcoerce⟩ := coerce?_items hitems hints
    cases h.symm.trans hcoerce
    split
    · exact .inl rfl
    · rename_i hne
      exact ofIds_isNormal hne
  cases v with
  | null =>
    cases h
    exact .inl rfl
  | bool b =>
    cases b with
    | false =>
      cases h
      exact .inl rfl
    | true =>
      cases h
      exact .inr (.inl rfl)
  | int i =>
    cases h
    exact ofIds_isNormal (List.cons_ne_nil i [])
  | filter mode listed => exact absurd rfl (hv mode listed)
  | _ =>
    obtain ⟨items, hitems, hints⟩ := hmeans
    exact hcollection items hitems hints

/-- **Collections with the same elements make the same filter**, with the elements as its ids. -/
theorem coerce?_of_sameItems {v w : Value} (hsame : v.SameItems w) (hv : v.MeansFilter) :
    ∃ f, coerce? v = some f ∧ coerce? w = some f ∧
      ∀ items, v.items? = some items → ∀ i, i ∈ f.ids.toList ↔ .int i ∈ items := by
  obtain ⟨xs, ys, hxs, hys, hmem⟩ := hsame
  have hints : ∀ x ∈ xs, ∃ i, x = .int i := by
    cases v with
    | list | tuple | set | frozenset =>
      obtain ⟨items, hitems, hints⟩ := hv
      cases hxs.symm.trans hitems
      exact hints
    | _ => cases hxs
  obtain ⟨is, rfl, hcoerce⟩ := coerce?_items hxs hints
  obtain ⟨js, rfl, hcoerce'⟩ := coerce?_items hys fun y hy => hints y ((hmem y).2 hy)
  have hids : ∀ i, i ∈ is ↔ i ∈ js := by
    intro i
    simpa using hmem (.int i)
  have hsets : IdSet.ofList is = IdSet.ofList js :=
    IdSet.ext_mem fun i => by rw [IdSet.mem_toList_ofList, IdSet.mem_toList_ofList, hids]
  have hnil : is = [] ↔ js = [] := by
    simp only [List.eq_nil_iff_forall_not_mem, hids]
  refine ⟨_, hcoerce, ?_, fun items hitems i => ?_⟩
  · simp only [hcoerce', ofIds, hsets, hnil]
  · cases hxs.symm.trans hitems
    cases is with
    | nil => simp [nobody]
    | cons j is => simp [ofIds, IdSet.mem_toList_ofList]

/-- A set is made a filter of exactly if every listed value is an integer or equals an earlier one.
-/
theorem coerce?_of_distinct {v : Value} {xs : List Value}
    (h : v.items? = some (Value.distinct xs)) :
    ((∃ f, coerce? v = some f) ↔ Value.IntegersFirst xs) ∧
      ∀ f, coerce? v = some f → ∀ i, i ∈ f.ids.toList ↔ .int i ∈ xs := by
  have hmeans : v.MeansFilter ↔ ∀ x ∈ Value.distinct xs, ∃ i, x = .int i := by
    cases v with
    | list | tuple | set | frozenset => simp [Value.MeansFilter, h]
    | _ => cases h
  refine ⟨by rw [exists_coerce?_iff, hmeans, Value.forall_distinct_iff], fun f hf i => ?_⟩
  have hv : v.MeansFilter := exists_coerce?_iff.1 ⟨f, hf⟩
  obtain ⟨f', hf', -, hids⟩ := coerce?_of_sameItems ⟨_, _, h, h, fun _ => Iff.rfl⟩ hv
  cases hf.symm.trans hf'
  rw [hids _ h, Value.int_mem_distinct_iff (hmeans.1 hv)]

end FilterSpec

namespace Listing

/-! ## Ids in statements -/

/-- The ids of the filters that select some, in the order of the dimensions. -/
def idLists (f : Filters) : List Binding :=
  (Dimension.all.filter fun d => (f.get d).mode = .specific).map fun d =>
    .expanding ((f.get d).ids.toList.map .int)

theorem map_binding_parametersAfter (used : List String) (values : List (String × Binding)) :
    (parametersAfter used (freshItems values)).map (·.binding) = values.map (·.2) := by
  induction values generalizing used with
  | nil => rfl
  | cons x values ih => exact congrArg (x.2 :: ·) (ih (x.1 :: used))

theorem expanding_predicate? (d : Dimension) (f : FilterSpec) :
    ((predicate? d f).toList.flatMap fun p => p.map KeyTest.binding).filter Binding.isExpanding
      = if f.mode = .specific then [.expanding (f.ids.toList.map .int)] else [] := by
  obtain ⟨mode, ids⟩ := f
  cases mode <;> cases d <;> rfl

theorem expanding_keyValues (f : Filters) :
    ((keyValues f).map (·.2)).filter Binding.isExpanding = idLists f := by
  have hdimensions : ∀ ds : List Dimension,
      ((ds.filterMap fun d => predicate? d (f.get d)).flatMap fun p =>
          p.map KeyTest.binding).filter Binding.isExpanding
        = (ds.filter fun d => (f.get d).mode = .specific).map fun d =>
          .expanding ((f.get d).ids.toList.map .int) := by
    intro ds
    induction ds with
    | nil => rfl
    | cons d ds ih =>
      have hhead := expanding_predicate? d (f.get d)
      rw [List.filterMap_cons, List.filter_cons]
      cases hp : predicate? d (f.get d) with
      | none =>
        rw [hp] at hhead
        by_cases hmode : (f.get d).mode = .specific
        · simp [hmode] at hhead
        · simpa [hmode] using ih
      | some p =>
        rw [hp] at hhead
        by_cases hmode : (f.get d).mode = .specific <;> simp_all
  simp only [keyValues, List.map_flatMap, List.map_map]
  exact hdimensions Dimension.all

/-- **A statement binds the ids of each filter in their order**, once for the best priorities and
once for the events. -/
theorem expanding_generatedParameters (s : Statement) :
    ((generatedParameters s.items).map (·.binding)).filter Binding.isExpanding
      = idLists s.filters ++ idLists s.filters := by
  have hvisible : ∀ showHidden,
      ((visibleValues showHidden).map (·.2)).filter Binding.isExpanding = [] := by
    intro showHidden
    cases showHidden <;> rfl
  have hpage : ((pageValues s).map (·.2)).filter Binding.isExpanding = [] := by
    unfold pageValues
    split <;> rfl
  rw [generatedParameters, parametersOf, ← parametersAfter, parametersAfter_filter_isGenerated,
    map_binding_parametersAfter, Statement.freshValues_items]
  simp [expanding_keyValues, hvisible, hpage, Binding.isExpanding]

end Listing

namespace FilterSpec

open Listing (Statement Binding compiled plan generatedParameters idLists)

theorem filters_eq_of_sameItems {values values' : ByDimension Value} {f f' : Filters}
    (h : ∀ d, values.get d = values'.get d ∨ (values.get d).SameItems (values'.get d))
    (hf : Filters.coerce values = .ok f) (hf' : Filters.coerce values' = .ok f') : f = f' := by
  have hget : ∀ d, f.get d = f'.get d := by
    intro d
    have hd := coerce_eq_ok_iff.1 (ByDimension.traverse_eq_ok_iff.1 hf d)
    have hd' := coerce_eq_ok_iff.1 (ByDimension.traverse_eq_ok_iff.1 hf' d)
    rcases h d with heq | hsame
    · rw [heq] at hd
      exact Option.some.inj (hd.symm.trans hd')
    · obtain ⟨g, hg, hg', -⟩ := coerce?_of_sameItems hsame (exists_coerce?_iff.1 ⟨_, hd⟩)
      rw [Option.some.inj (hd.symm.trans hg), Option.some.inj (hd'.symm.trans hg')]
  obtain ⟨u, g, c, k⟩ := f
  obtain ⟨u', g', c', k'⟩ := f'
  rw [show u = u' from hget .users, show g = g' from hget .groups, show c = c' from hget .courses,
    show k = k' from hget .categories]

end FilterSpec

end EventCalendar
