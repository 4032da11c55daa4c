import EventCalendar.Listing.Parameter

/-!
# Names of parameters

The generated names of a statement are all different (`generatedName_inj`) and count the values of
each stem (`mem_generatedNames_iff`), so its parameters clash exactly if the caller uses one of them
(`clash?_eq_none_iff`).
-/

set_option autoImplicit false

namespace EventCalendar.Listing

/-! ## Generated names -/

theorem toList_generatedName (stem : String) (n : Nat) :
    (generatedName stem n).toList = stem.toList ++ '_' :: Nat.toDigits 10 n := by
  have hn : (Text.decimal n).toList = Nat.toDigits 10 n := Nat.toList_repr
  rw [generatedName, String.toList_append, String.toList_append, hn]
  simp

/-- The last underscore of a generated name is the one before its number. -/
theorem generatedName_inj {stem stem' : String} {n n' : Nat}
    (h : generatedName stem n = generatedName stem' n') : stem = stem' ∧ n = n' := by
  have hdigits : ∀ {k k' : Nat} {a : List Char},
      '_' :: Nat.toDigits 10 k = a ++ '_' :: Nat.toDigits 10 k' → a = [] ∧ k = k' := by
    intro k k' a ha
    cases a with
    | nil =>
      have hk := congrArg (Nat.ofDigitChars 10 · 0) (List.cons.inj ha).2
      simp only [Nat.ofDigitChars_ten_toDigits] at hk
      exact ⟨rfl, hk⟩
    | cons c a =>
      have hmem : '_' ∈ Nat.toDigits 10 k := by
        rw [(List.cons.inj ha).2]
        simp
      exact absurd hmem Nat.underscore_not_in_toDigits
  have hlist := congrArg String.toList h
  rw [toList_generatedName, toList_generatedName, List.append_eq_append_iff] at hlist
  rcases hlist with ⟨a, hstem, hrest⟩ | ⟨a, hstem, hrest⟩
  · obtain ⟨rfl, hn⟩ := hdigits hrest
    exact ⟨String.toList_inj.1 (by simpa using hstem.symm), hn⟩
  · obtain ⟨rfl, hn⟩ := hdigits hrest
    exact ⟨String.toList_inj.1 (by simpa using hstem), hn.symm⟩

/-! ## Parameters of one name -/

/-- The parameters may stand in one statement. -/
def Parameter.Compatible (p q : Parameter) : Prop :=
  p.name = q.name →
    p.isGenerated = false ∧ q.isGenerated = false ∧ p.binding.isExpanding = q.binding.isExpanding

theorem Parameter.clashWith?_eq_none_iff {p q : Parameter} :
    p.clashWith? q = none ↔
      q.isGenerated = false ∧ p.isGenerated = false ∧
        q.binding.isExpanding = p.binding.isExpanding := by
  unfold clashWith?
  cases p.isGenerated <;> cases q.isGenerated <;> simp

/-- A parameter is compared with the last one of its name only, which stands for all before it. -/
theorem bind_clashWith?_eq_none_iff {earlier : List Parameter}
    (h : earlier.Pairwise fun q p => p.Compatible q) (p : Parameter) :
    (earlier.find? fun q => q.name == p.name).bind p.clashWith? = none ↔
      ∀ q ∈ earlier, q.Compatible p := by
  induction earlier with
  | nil => simp
  | cons q earlier ih =>
    obtain ⟨hq, h⟩ := List.pairwise_cons.1 h
    rw [List.find?_cons]
    cases hname : q.name == p.name with
    | false =>
      have hne : q.name ≠ p.name := by simpa using hname
      rw [ih h, List.forall_mem_cons]
      exact ⟨fun hall => ⟨fun he => absurd he hne, hall⟩, fun hall => hall.2⟩
    | true =>
      have hname : q.name = p.name := by simpa using hname
      rw [Option.bind_some, Parameter.clashWith?_eq_none_iff, List.forall_mem_cons]
      constructor
      · rintro ⟨hqg, hpg, he⟩
        refine ⟨fun _ => ⟨hqg, hpg, he⟩, fun r hr hrp => ?_⟩
        obtain ⟨hrg, -, he'⟩ := hq r hr (hrp.trans hname.symm)
        exact ⟨hrg, hpg, he'.trans he⟩
      · exact fun hall => hall.1 hname

theorem clashAfter?_eq_none_iff {earlier ps : List Parameter}
    (h : earlier.Pairwise fun q p => p.Compatible q) :
    clashAfter? earlier ps = none ↔
      ps.Pairwise Parameter.Compatible ∧ ∀ q ∈ earlier, ∀ p ∈ ps, q.Compatible p := by
  induction ps generalizing earlier with
  | nil => simp [clashAfter?]
  | cons p ps ih =>
    have hp := bind_clashWith?_eq_none_iff h p
    rw [clashAfter?, List.pairwise_cons]
    cases hclash : (earlier.find? fun q => q.name == p.name).bind p.clashWith? with
    | some clash =>
      rw [hclash] at hp
      simp only [reduceCtorEq, false_iff] at hp ⊢
      exact fun hall => hp fun q hq => hall.2 q hq p (by simp)
    | none =>
      have hp := hp.1 hclash
      simp only
      rw [ih (List.pairwise_cons.2 ⟨hp, h⟩)]
      constructor
      · rintro ⟨hps, hall⟩
        refine ⟨⟨hall p (by simp), hps⟩, fun q hq => List.forall_mem_cons.2 ⟨hp q hq, ?_⟩⟩
        exact hall q (by simp [hq])
      · rintro ⟨⟨hpps, hps⟩, hall⟩
        exact ⟨hps, List.forall_mem_cons.2 ⟨hpps, fun q hq => (List.forall_mem_cons.1 (hall q hq)).2⟩⟩

/-! ## Parameters of a statement -/

def generatedNames (items : List Item) : List String :=
  ((parametersOf items).filter (·.isGenerated)).map (·.name)

/-- The parameters of items, after values of the stems `used`. -/
def parametersAfter (used : List String) (items : List Item) : List Parameter :=
  (numbered used items).filterMap Slot.parameter?

section
variable {used : List String} {items : List Item}

theorem parametersAfter_char (c : Char) :
    parametersAfter used (.char c :: items) = parametersAfter used items := rfl

theorem parametersAfter_named (name : String) (b : Binding) :
    parametersAfter used (.named name b :: items)
      = ⟨name, false, b⟩ :: parametersAfter used items := rfl

theorem parametersAfter_fresh (stem : String) (b : Binding) :
    parametersAfter used (.fresh stem b :: items)
      = ⟨generatedName stem (used.count stem + 1), true, b⟩
        :: parametersAfter (stem :: used) items := rfl

theorem exists_stem_of_isGenerated {p : Parameter} (hp : p ∈ parametersAfter used items)
    (hg : p.isGenerated = true) :
    ∃ stem n, p.name = generatedName stem n ∧ used.count stem < n := by
  induction items generalizing used with
  | nil => simp [parametersAfter, numbered] at hp
  | cons x items ih =>
    cases x with
    | char c => exact ih hp
    | named name b =>
      rw [parametersAfter_named, List.mem_cons] at hp
      rcases hp with rfl | hp
      · cases hg
      · exact ih hp
    | fresh stem b =>
      rw [parametersAfter_fresh, List.mem_cons] at hp
      rcases hp with rfl | hp
      · exact ⟨stem, _, rfl, Nat.lt_succ_self _⟩
      · obtain ⟨stem', n, hname, hn⟩ := ih hp
        exact ⟨stem', n, hname, Nat.lt_of_le_of_lt List.count_le_count_cons hn⟩

theorem mem_parametersAfter_iff {p : Parameter} (hg : p.isGenerated = false) :
    p ∈ parametersAfter used items ↔ .named p.name p.binding ∈ items := by
  obtain ⟨name, generated, b⟩ := p
  cases hg
  simp only
  induction items generalizing used with
  | nil => simp [parametersAfter, numbered]
  | cons x items ih =>
    cases x with
    | char c => simpa [parametersAfter_char] using ih
    | named name' b' => simp [parametersAfter_named, ih]
    | fresh stem b' => simp [parametersAfter_fresh, ih]

theorem isDigit_of_mem_generatedNames {name : String} (h : name ∈ generatedNames items) {c : Char}
    (hc : name.toList.getLast? = some c) : c.isDigit = true := by
  obtain ⟨p, hp, rfl⟩ := List.mem_map.1 h
  obtain ⟨hmem, hg⟩ : p ∈ parametersAfter [] items ∧ p.isGenerated = true := List.mem_filter.1 hp
  obtain ⟨stem, n, hname, -⟩ := exists_stem_of_isGenerated hmem hg
  rw [hname, toList_generatedName, List.getLast?_append, List.getLast?_cons,
    Option.some_or] at hc
  cases hd : (Nat.toDigits 10 n).getLast? with
  | none => exact absurd (List.getLast?_eq_none_iff.1 hd) Nat.toDigits_ne_nil
  | some d =>
    rw [hd] at hc
    cases hc
    exact Nat.isDigit_of_mem_toDigits (by decide) (by decide) (List.mem_of_getLast? hd)

/-- Parameters are compatible as long as the caller's names, each bound in one way, are none of the
generated ones. -/
theorem pairwise_parametersAfter {params : NamedValues}
    (hbind : ∀ name b, .named name b ∈ items → b = .ofName params name)
    (hname : ∀ p ∈ parametersAfter used items, p.isGenerated = true →
      ∀ b, .named p.name b ∉ items) :
    (parametersAfter used items).Pairwise Parameter.Compatible := by
  induction items generalizing used with
  | nil => exact .nil
  | cons x items ih =>
    have hbind' := fun name b h => hbind name b (List.mem_cons_of_mem _ h)
    cases x with
    | char c =>
      exact ih hbind' fun p hp hg b h => hname p hp hg b (List.mem_cons_of_mem _ h)
    | named name b =>
      rw [parametersAfter_named] at hname ⊢
      refine List.pairwise_cons.2 ⟨fun q hq he => ?_, ih hbind' fun p hp hg b' h =>
        hname p (List.mem_cons_of_mem _ hp) hg b' (List.mem_cons_of_mem _ h)⟩
      simp only at he
      cases hg : q.isGenerated with
      | true =>
        exact absurd (by rw [he]; simp)
          (hname q (List.mem_cons_of_mem _ hq) hg b)
      | false =>
        have hq' := hbind' _ _ ((mem_parametersAfter_iff hg).1 hq)
        refine ⟨rfl, rfl, ?_⟩
        rw [hq', ← he, hbind name b (by simp)]
    | fresh stem b =>
      rw [parametersAfter_fresh] at hname ⊢
      refine List.pairwise_cons.2 ⟨fun q hq he => ?_, ih hbind' fun p hp hg b' h =>
        hname p (List.mem_cons_of_mem _ hp) hg b' (List.mem_cons_of_mem _ h)⟩
      simp only at he
      cases hg : q.isGenerated with
      | true =>
        obtain ⟨stem', n, hq', hn⟩ := exists_stem_of_isGenerated hq hg
        obtain ⟨rfl, rfl⟩ := generatedName_inj (he.trans hq')
        simp at hn
      | false =>
        have hmem := (mem_parametersAfter_iff hg).1 hq
        rw [← he] at hmem
        exact absurd (List.mem_cons_of_mem _ hmem)
          (hname ⟨generatedName stem (used.count stem + 1), true, b⟩ (by simp) rfl q.binding)

end

theorem mem_generatedNames_iff {items : List Item} {name : String} :
    name ∈ generatedNames items ↔
      ∃ stem n, name = generatedName stem n ∧ 0 < n ∧ n ≤ (stems items).count stem := by
  have hafter : ∀ used : List String,
      name ∈ ((parametersAfter used items).filter (·.isGenerated)).map (·.name) ↔
        ∃ stem n, name = generatedName stem n ∧ used.count stem < n ∧
          n ≤ used.count stem + (stems items).count stem := by
    induction items with
    | nil =>
      intro used
      simp only [parametersAfter, numbered, stems, List.filterMap_nil, List.filter_nil, List.map_nil,
        List.not_mem_nil, false_iff, List.count_nil]
      rintro ⟨stem, n, -, hlt, hle⟩
      omega
    | cons x items ih =>
      intro used
      cases x with
      | char c => exact ih used
      | named name' b => exact ih used
      | fresh stem b =>
        rw [parametersAfter_fresh, List.filter_cons_of_pos rfl, List.map_cons, List.mem_cons,
          ih (stem :: used), stems]
        constructor
        · rintro (rfl | ⟨stem', n, rfl, hlt, hle⟩)
          · exact ⟨stem, _, rfl, Nat.lt_succ_self _, by simp⟩
          · refine ⟨stem', n, rfl, ?_, ?_⟩ <;> grind
        · rintro ⟨stem', n, rfl, hlt, hle⟩
          by_cases h : stem' = stem ∧ n = used.count stem + 1
          · exact .inl (by rw [h.1, h.2])
          · refine .inr ⟨stem', n, rfl, ?_, ?_⟩ <;> grind
  exact (hafter []).trans (by simp)

theorem stems_append (xs ys : List Item) : stems (xs ++ ys) = stems xs ++ stems ys := by
  induction xs with
  | nil => rfl
  | cons x xs ih => cases x <;> simp [stems, ih]

theorem mem_generatedNames_append {xs : List Item} {name : String} (h : name ∈ generatedNames xs)
    (ys : List Item) : name ∈ generatedNames (xs ++ ys) := by
  obtain ⟨stem, n, rfl, hpos, hle⟩ := mem_generatedNames_iff.1 h
  refine mem_generatedNames_iff.2 ⟨stem, n, rfl, hpos, ?_⟩
  rw [stems_append, List.count_append]
  omega

theorem name_ne_of_pairwise {ps : List Parameter} (h : ps.Pairwise Parameter.Compatible)
    {p q : Parameter} (hp : p ∈ ps) (hq : q ∈ ps) (hpg : p.isGenerated = false)
    (hqg : q.isGenerated = true) : p.name ≠ q.name := by
  induction ps with
  | nil => cases hp
  | cons r ps ih =>
    obtain ⟨hr, h⟩ := List.pairwise_cons.1 h
    rcases List.mem_cons.1 hp with rfl | hp'
    · rcases List.mem_cons.1 hq with rfl | hq'
      · rw [hpg] at hqg
        cases hqg
      · intro he
        have := (hr q hq' he).2.1
        rw [hqg] at this
        cases this
    · rcases List.mem_cons.1 hq with rfl | hq'
      · intro he
        have := (hr p hp' he.symm).1
        rw [hqg] at this
        cases this
      · exact ih h hp' hq'

/-- **Clashes**: the parameters of a statement clash exactly if the caller uses a generated name. -/
theorem clash?_eq_none_iff {params : NamedValues} {items : List Item}
    (hbind : ∀ name b, .named name b ∈ items → b = .ofName params name) :
    clash? items = none ↔ ∀ name b, .named name b ∈ items → name ∉ generatedNames items := by
  have hgen : ∀ name, name ∈ generatedNames items ↔
      ∃ p ∈ parametersAfter [] items, p.isGenerated = true ∧ p.name = name := by
    intro name
    simp [generatedNames, parametersOf, parametersAfter, and_assoc]
  rw [clash?, clashAfter?_eq_none_iff .nil]
  constructor
  · rintro ⟨h, -⟩ name b hmem hname
    obtain ⟨q, hq, hqg, rfl⟩ := (hgen name).1 hname
    exact name_ne_of_pairwise h ((mem_parametersAfter_iff (p := ⟨q.name, false, b⟩) rfl).2 hmem)
      hq rfl hqg rfl
  · intro h
    refine ⟨pairwise_parametersAfter hbind fun p hp hg b hmem => ?_, by simp⟩
    exact h p.name b hmem ((hgen p.name).2 ⟨p, hp, hg, rfl⟩)

end EventCalendar.Listing
