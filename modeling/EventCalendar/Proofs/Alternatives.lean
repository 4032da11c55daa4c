import EventCalendar.Proofs.Condition
import EventCalendar.Proofs.Reading

/-!
# Alternatives of a condition

A condition is a disjunction of conjunctions of factors, `OR` binding looser than `AND`. A `Chain`
cuts tokens at the separators of one level:

* `parses_iff_chain`: reading at the level of a separator is reading the parts of a chain.
* `Alternatives`: the factors of a condition, by alternatives; every condition has them.
* `Alternatives.join`: **what `AND` between two texts means**: it joins the last alternative of the
  one with the first of the other (`splice`), not the two conditions.
-/

set_option autoImplicit false

namespace EventCalendar.Sql

/-! ## Enough fuel -/

/-- The tokens do not begin with a dot, which would carry on a name. -/
def NoDot (s : List Token) : Prop := s.head? ≠ some (.symbol .dot)

theorem Follows.refl {l : Nat} {r : List Token} (h : NoDot r) : Follows l r r := ⟨id, id, h⟩

theorem expression_of_le {n m l : Nat} {s r : List Token} {e : Expr}
    (h : expression n l s = some (e, r)) (hr : NoDot r) (hm : 2 * s.length + 2 ≤ m) :
    expression m l s = some (e, r) := by
  obtain ⟨-, p, -, rfl, read⟩ := (reads_locally n).expression h
  exact read r (.refl hr) m hm

theorem operand_of_le {n m : Nat} {s r : List Token} {e : Expr}
    (h : operand n s = some (e, r)) (hr : NoDot r) (hm : 2 * s.length + 1 ≤ m) :
    operand m s = some (e, r) := by
  obtain ⟨p, -, rfl, read⟩ := (reads_locally n).operand h
  exact read r (.refl hr) m hm

theorem continued_of_le {n m l : Nat} {s r : List Token} {a e : Expr}
    (h : continued n l a s = some (e, r)) (hr : NoDot r) (hm : 2 * s.length + 2 ≤ m) :
    continued m l a s = some (e, r) := by
  obtain ⟨-, p, rfl, -, read⟩ := (reads_locally n).continued h
  exact read r (.refl hr) m hm

theorem Extension.read_of_le {n m own : Nat} {x : Extension} {s r : List Token} {a e : Expr}
    (h : x.read n own a s = some (e, r)) (hx : (∃ f, x = .between f) → own = equalityLevel)
    (hr : NoDot r) (hm : 2 * s.length + 3 ≤ m) : x.read m own a s = some (e, r) := by
  obtain ⟨p, rfl, -, read⟩ := Extension.read_local (reads_locally n) h hx
  exact read r (.refl hr) m hm

theorem NoDot.of_continued {n l : Nat} {s r : List Token} {a e : Expr}
    (h : continued n l a s = some (e, r)) (hr : NoDot r) : NoDot s := by
  obtain ⟨-, p, rfl, hopens, -⟩ := (reads_locally n).continued h
  cases p with
  | nil => exact hr
  | cons t p => exact (hopens (by simp)).1

/-! ## Splitting a level off -/

theorem exists_operator {l : Nat} {s : List Token} (h : ¬ Stops l s) :
    ∃ own x rest, extension? s = some (own, x, rest) ∧ l ≤ own := by
  simp only [Stops, opLevel?, Option.map_eq_some_iff, Classical.not_forall] at h
  obtain ⟨own, ⟨⟨own', x, rest⟩, hx, rfl⟩, hl⟩ := h
  exact ⟨_, x, rest, hx, Nat.not_lt.1 hl⟩

/-- Operators of one level are read after all tighter ones. -/
theorem continued_split {n l : Nat} {s r : List Token} {a e : Expr}
    (h : continued n l a s = some (e, r)) (hr : NoDot r) :
    ∃ b mid, (∃ k, continued k (l + 1) a s = some (b, mid)) ∧
      ∃ k, continued k l b mid = some (e, r) := by
  induction n generalizing a s with
  | zero => simp [continued] at h
  | succ n ih =>
    by_cases hs : Stops (l + 1) s
    · exact ⟨a, s, ⟨1, continued_of_stops hs 0 a⟩, n + 1, h⟩
    obtain ⟨own, x, rest, hx, hl⟩ := exists_operator hs
    obtain ⟨q, rfl, hq⟩ := exists_isOperator hx
    rw [continued_of_operator hx (by omega), Option.bind_eq_some_iff] at h
    obtain ⟨⟨b, mid⟩, hb, h⟩ := h
    obtain ⟨c, mid', ⟨k, hk⟩, k', hk'⟩ := ih h
    have hmid' : NoDot mid' := .of_continued hk' hr
    have hmid : NoDot mid := .of_continued hk hmid'
    refine ⟨c, mid', ⟨2 * rest.length + 2 * mid.length + 4, ?_⟩, k', hk'⟩
    rw [continued_of_operator hx (by omega), Extension.read_of_le hb hq.between hmid (by omega),
      Option.bind_some]
    exact continued_of_le hk hmid' (by simp only; omega)

/-- Operators of one level may be read together with all tighter ones before them. -/
theorem continued_join {k k' l : Nat} {s mid r : List Token} {a b e : Expr}
    (h : continued k (l + 1) a s = some (b, mid)) (h' : continued k' l b mid = some (e, r))
    (hr : NoDot r) : ∃ n, continued n l a s = some (e, r) := by
  induction k generalizing a s with
  | zero => simp [continued] at h
  | succ k ih =>
    by_cases hs : Stops (l + 1) s
    · rw [continued_of_stops hs] at h
      cases h
      exact ⟨k', h'⟩
    obtain ⟨own, x, rest, hx, hl⟩ := exists_operator hs
    obtain ⟨q, rfl, hq⟩ := exists_isOperator hx
    rw [continued_of_operator hx (by omega), Option.bind_eq_some_iff] at h
    obtain ⟨⟨c, mid'⟩, hc, h⟩ := h
    obtain ⟨n, hn⟩ := ih h
    refine ⟨2 * rest.length + 2 * mid'.length + 4, ?_⟩
    rw [continued_of_operator hx (by omega),
      Extension.read_of_le hc hq.between (.of_continued hn hr) (by omega),
      Option.bind_some]
    exact continued_of_le hn hr (by simp only; omega)

theorem exists_expression_iff {l : Nat} {s r : List Token} {e : Expr} (hr : NoDot r) :
    (∃ n, expression n l s = some (e, r)) ↔
      ∃ a mid, (∃ n, operand n s = some (a, mid)) ∧ ∃ n, continued n l a mid = some (e, r) := by
  constructor
  · rintro ⟨n, h⟩
    cases n with
    | zero => simp [expression] at h
    | succ n =>
      rw [expression_succ, Option.bind_eq_some_iff] at h
      obtain ⟨⟨a, mid⟩, ha, h⟩ := h
      exact ⟨a, mid, ⟨n, ha⟩, n, h⟩
  · rintro ⟨a, mid, ⟨n, ha⟩, k, h⟩
    refine ⟨2 * s.length + 2 * mid.length + 3, ?_⟩
    rw [expression_succ, operand_of_le ha (.of_continued h hr) (by omega), Option.bind_some]
    exact continued_of_le h hr (by simp only; omega)

/-- An expression of one level is one of the next, and what operators of its own level add. -/
theorem exists_expression_split {l : Nat} {s r : List Token} {e : Expr} (hr : NoDot r) :
    (∃ n, expression n l s = some (e, r)) ↔
      ∃ a mid, (∃ n, expression n (l + 1) s = some (a, mid)) ∧
        ∃ n, continued n l a mid = some (e, r) := by
  rw [exists_expression_iff hr]
  constructor
  · rintro ⟨a, mid, ha, n, h⟩
    obtain ⟨b, mid', hb, k, hk⟩ := continued_split h hr
    exact ⟨b, mid', (exists_expression_iff (.of_continued hk hr)).2 ⟨a, mid, ha, hb⟩, k, hk⟩
  · rintro ⟨b, mid', hb, k, hk⟩
    obtain ⟨a, mid, ha, j, h⟩ := (exists_expression_iff (.of_continued hk hr)).1 hb
    exact ⟨a, mid, ha, continued_join h hk hr⟩

/-! ## Chains -/

/-- The tokens, to their end, are an expression whose operators are of level `l` or tighter. -/
def Parses (l : Nat) (s : List Token) (e : Expr) : Prop := ∃ n, expression n l s = some (e, [])

theorem Parses.of_expression {n l : Nat} {s r : List Token} {e : Expr}
    (h : expression n l s = some (e, r)) : ∃ p, s = p ++ r ∧ Parses l p e ∧ Stops l r := by
  obtain ⟨hstop, p, -, rfl, read⟩ := (reads_locally n).expression h
  have hnil := read [] (.of_closing rfl (by simp)) _ (Nat.le_refl _)
  rw [List.append_nil] at hnil
  exact ⟨p, rfl, ⟨_, hnil⟩, hstop⟩

theorem Parses.append {l : Nat} {s r : List Token} {e : Expr} (h : Parses l s e) (hr : Stops l r)
    (hl : l ≤ equalityLevel) (hdot : NoDot r) {m : Nat} (hm : 2 * (s ++ r).length + 2 ≤ m) :
    expression m l (s ++ r) = some (e, r) := by
  obtain ⟨n, h⟩ := h
  obtain ⟨-, p, -, hs, read⟩ := (reads_locally n).expression h
  rw [List.append_nil] at hs
  subst hs
  exact read r (.of_stops hr (Nat.le_refl _) hl hdot) m hm

section
variable {α : Type}

/-- Parts with separators between, and what they are read as. -/
inductive Chain (sep : Token) (Part : List Token → α → Prop) : List Token → List α → Prop
  | part {s : List Token} {x : α} : Part s x → Chain sep Part s [x]
  | snoc {s t : List Token} {xs : List α} {x : α} :
    Chain sep Part s xs → Part t x → Chain sep Part (s ++ sep :: t) (xs ++ [x])

variable {sep : Token} {Part : List Token → α → Prop} {s t : List Token} {xs ys : List α}

theorem Chain.ne_nil (h : Chain sep Part s xs) : xs ≠ [] := by
  cases h <;> simp

theorem Chain.append (hs : Chain sep Part s xs) (ht : Chain sep Part t ys) :
    Chain sep Part (s ++ sep :: t) (xs ++ ys) := by
  induction ht with
  | part h => exact .snoc hs h
  | snoc _ h ih =>
    have := Chain.snoc ih h
    simpa only [List.append_assoc, List.cons_append] using this

theorem Chain.map {β : Type} {Q : List Token → β → Prop} {f : β → α}
    (hf : ∀ {s x}, Part s x → ∃ y, Q s y ∧ f y = x) (h : Chain sep Part s xs) :
    ∃ ys, Chain sep Q s ys ∧ ys.map f = xs := by
  induction h with
  | part h =>
    obtain ⟨y, hy, rfl⟩ := hf h
    exact ⟨[y], .part hy, rfl⟩
  | snoc _ h ih =>
    obtain ⟨ys, hys, rfl⟩ := ih
    obtain ⟨y, hy, rfl⟩ := hf h
    exact ⟨ys ++ [y], .snoc hys hy, by simp⟩

end

def grouped (make : Expr → Expr → Expr) : List Expr → Expr
  | [] => .constant .null
  | e :: es => es.foldl make e

theorem grouped_snoc (make : Expr → Expr → Expr) {es : List Expr} (h : es ≠ []) (e : Expr) :
    grouped make (es ++ [e]) = make (grouped make es) e := by
  cases es with
  | nil => contradiction
  | cons d es => simp [grouped]

/-- The token is the one operator of its level. -/
structure Separates (sep : Token) (l : Nat) (make : Expr → Expr → Expr) : Prop where
  binary : binary? sep = some (l, make)
  unique : ∀ {s}, opLevel? s = some l → ∃ rest, s = sep :: rest
  tight : l < equalityLevel

theorem separates_of_binary {sep : Token} {l : Nat} {make : Expr → Expr → Expr}
    (h : binary? sep = some (l, make)) (hl : l < equalityLevel)
    (hu : ∀ t make', binary? t = some (l, make') → t = sep) : Separates sep l make := by
  refine ⟨h, fun {s} hs => ?_, hl⟩
  revert hs
  unfold opLevel?
  fun_cases extension? s with
  | case10 token rest =>
    intro hs
    rw [Option.map_map, Option.map_eq_some_iff] at hs
    obtain ⟨⟨own, make'⟩, hb, rfl⟩ := hs
    exact ⟨rest, by rw [hu token make' hb]⟩
  | case11 => rintro ⟨⟩
  | _ =>
    rintro ⟨⟩
    exact absurd hl (Nat.lt_irrefl _)

theorem separates_or : Separates (.word "or") orLevel .or :=
  separates_of_binary rfl (by decide) fun t make' h => by
    unfold binary? at h
    split at h
    case h_1 => rfl
    case h_3 op => cases op <;> cases h
    all_goals cases h

theorem separates_and : Separates (.word "and") andLevel .and :=
  separates_of_binary rfl (by decide) fun t make' h => by
    unfold binary? at h
    split at h
    case h_2 => rfl
    case h_3 op => cases op <;> cases h
    all_goals cases h

section
variable {sep : Token} {l : Nat} {make : Expr → Expr → Expr} (hsep : Separates sep l make)
include hsep

theorem Separates.extension (s : List Token) :
    extension? (sep :: s) = some (l, .operand make, s) := extension?_of_binary hsep.binary s

theorem Separates.stops (s : List Token) : Stops (l + 1) (sep :: s) :=
  stops_of_opLevel?_eq_some (by rw [opLevel?, hsep.extension]; rfl) (Nat.lt_succ_self _)

theorem Separates.exists_eq {s : List Token} (h : ¬ Stops l s) (h' : Stops (l + 1) s) :
    ∃ rest, s = sep :: rest := by
  obtain ⟨own, x, rest, hx, hl⟩ := exists_operator h
  have ho : opLevel? s = some own := by rw [opLevel?, hx]; rfl
  have := h' own ho
  exact hsep.unique (by rw [ho]; congr 1; omega)

theorem chain_of_continued {n : Nat} {s t : List Token} {es : List Expr} {e : Expr}
    (hs : Chain sep (Parses (l + 1)) s es)
    (h : continued n l (grouped make es) t = some (e, [])) (ht : Stops (l + 1) t) :
    ∃ es', Chain sep (Parses (l + 1)) (s ++ t) es' ∧ e = grouped make es' := by
  induction n generalizing s t es with
  | zero => simp [continued] at h
  | succ n ih =>
    by_cases hstop : Stops l t
    · rw [continued_of_stops hstop] at h
      cases h
      exact ⟨es, by rwa [List.append_nil], rfl⟩
    obtain ⟨u, rfl⟩ := hsep.exists_eq hstop ht
    rw [continued_of_operator (hsep.extension u) (Nat.lt_irrefl l), Option.bind_eq_some_iff] at h
    obtain ⟨⟨c, mid⟩, hc, h⟩ := h
    obtain ⟨⟨b, mid⟩, hb, hc⟩ := Option.map_eq_some_iff.1 hc
    cases hc
    obtain ⟨p, rfl, hp, hmid⟩ := Parses.of_expression hb
    rw [← grouped_snoc make hs.ne_nil] at h
    have := ih (.snoc hs hp) h hmid
    simpa only [List.append_assoc, List.cons_append] using this

theorem Chain.expression {s : List Token} {es : List Expr} (hs : Chain sep (Parses (l + 1)) s es)
    {t r : List Token} {e : Expr} {n : Nat}
    (h : continued n l (grouped make es) t = some (e, r)) (ht : Stops (l + 1) t) (hr : NoDot r) :
    ∃ n, Sql.expression n l (s ++ t) = some (e, r) := by
  have hlevel : l + 1 ≤ equalityLevel := hsep.tight
  induction hs generalizing t r e n with
  | part hx =>
    have hread := hx.append ht hlevel (.of_continued h hr) (Nat.le_refl _)
    exact (exists_expression_split hr).2 ⟨_, t, ⟨_, hread⟩, n, h⟩
  | @snoc s u es x hs hx ih =>
    have hread := hx.append (r := t) (m := 2 * (u ++ t).length + 2 * t.length + 2) ht hlevel
      (.of_continued h hr) (by omega)
    rw [List.append_assoc, List.cons_append]
    refine ih (n := 2 * (u ++ t).length + 2 * t.length + 3) ?_ (hsep.stops _) hr
    rw [continued_of_operator (hsep.extension _) (Nat.lt_irrefl _)]
    simp only [Extension.read, hread, Option.map_some, Option.bind_some]
    rw [← grouped_snoc make hs.ne_nil]
    exact continued_of_le h hr (by omega)

/-- **Reading at the level of a separator** is reading the parts of a chain. -/
theorem parses_iff_chain {s : List Token} {e : Expr} :
    Parses l s e ↔ ∃ es, Chain sep (Parses (l + 1)) s es ∧ e = grouped make es := by
  have hnil : NoDot [] := by simp [NoDot]
  constructor
  · intro h
    obtain ⟨a, mid, ⟨n, ha⟩, k, hk⟩ := (exists_expression_split hnil).1 h
    obtain ⟨p, rfl, hp, hmid⟩ := Parses.of_expression ha
    exact chain_of_continued hsep (.part hp) hk hmid
  · rintro ⟨es, hs, rfl⟩
    have hstop : ∀ k, Stops k [] := stops_of_opLevel?_eq_none rfl
    have := hs.expression hsep (continued_of_stops (hstop l) 0 _) (hstop _) hnil
    rwa [List.append_nil] at this

end

/-! ## Alternatives -/

/-- The factors of a condition, by alternatives. -/
def Alternatives (s : List Token) (gss : List (List Expr)) : Prop :=
  Chain (.word "or") (Chain (.word "and") (Parses (andLevel + 1))) s gss

def alternativesExpr (gss : List (List Expr)) : Expr := grouped .or (gss.map (grouped .and))

/-- Every condition has alternatives, and they say what it says. -/
theorem parses_iff_alternatives {s : List Token} {e : Expr} :
    Parses orLevel s e ↔ ∃ gss, Alternatives s gss ∧ e = alternativesExpr gss := by
  rw [parses_iff_chain separates_or]
  constructor
  · rintro ⟨es, hs, rfl⟩
    obtain ⟨gss, hgss, rfl⟩ := hs.map (Q := Chain (.word "and") (Parses (andLevel + 1)))
      (f := grouped .and) fun h => by
        obtain ⟨gs, hgs, rfl⟩ := (parses_iff_chain separates_and).1 h
        exact ⟨gs, hgs, rfl⟩
    exact ⟨gss, hgss, rfl⟩
  · rintro ⟨gss, hs, rfl⟩
    refine ⟨gss.map (grouped .and), ?_, rfl⟩
    induction hs with
    | part h => exact .part ((parses_iff_chain separates_and).2 ⟨_, h, rfl⟩)
    | snoc _ h ih =>
      rw [List.map_append]
      exact .snoc ih ((parses_iff_chain separates_and).2 ⟨_, h, rfl⟩)

theorem Alternatives.factor {s : List Token} {e : Expr} (h : Parses (andLevel + 1) s e) :
    Alternatives s [[e]] := .part (.part h)

/-- Joins the last of the first list with the first of the second one. -/
def splice : List (List Expr) → List (List Expr) → List (List Expr)
  | [], hss => hss
  | [g], h :: hss => (g ++ h) :: hss
  | g :: gss, hss => g :: splice gss hss

theorem splice_snoc_cons (gss : List (List Expr)) (g h : List Expr) (hss : List (List Expr)) :
    splice (gss ++ [g]) (h :: hss) = gss ++ (g ++ h) :: hss := by
  induction gss with
  | nil => rfl
  | cons f gss ih =>
    cases gss with
    | nil => rfl
    | cons f' gss =>
      simp only [List.cons_append] at ih ⊢
      rw [splice, ih]
      simp

/-- **What `AND` between two texts means**: it joins the last alternative of the one with the first
of the other, since it binds tighter than any `OR` in them. -/
theorem Alternatives.join {s t : List Token} {gss hss : List (List Expr)}
    (hs : Alternatives s gss) (ht : Alternatives t hss) :
    Alternatives (s ++ .word "and" :: t) (splice gss hss) := by
  induction ht with
  | part h =>
    cases hs with
    | part hg => exact .part (hg.append h)
    | snoc hgss hg =>
      rw [splice_snoc_cons, List.append_assoc, List.cons_append]
      exact .snoc hgss (hg.append h)
  | @snoc u v hss h hhss hh ih =>
    have hsplice : splice gss (hss ++ [h]) = splice gss hss ++ [h] := by
      obtain ⟨init, g, rfl⟩ : ∃ init g, gss = init ++ [g] :=
        ⟨_, _, (List.dropLast_concat_getLast hs.ne_nil).symm⟩
      cases hss with
      | nil => exact absurd rfl hhss.ne_nil
      | cons h' hss => simp [splice_snoc_cons]
    rw [hsplice, ← List.cons_append, ← List.append_assoc]
    exact .snoc ih hh

/-! ## Truth of alternatives -/

/-- All factors of one alternative hold on a row. -/
def anyHolds (gss : List (List Expr)) (row : Row) : Bool := gss.any fun gs => gs.all (·.holds row)

theorem holds_grouped_and {es : List Expr} (h : es ≠ []) (row : Row) :
    (grouped .and es).holds row = es.all (·.holds row) := by
  cases es with
  | nil => contradiction
  | cons e es =>
    rw [grouped, List.all_cons]
    induction es generalizing e with
    | nil => simp
    | cons d es ih =>
      rw [List.foldl_cons, ih (.and e d) (by simp), Expr.holds_and, List.all_cons, Bool.and_assoc]

theorem holds_grouped_or {es : List Expr} (h : es ≠ []) (row : Row) :
    (grouped .or es).holds row = es.any (·.holds row) := by
  cases es with
  | nil => contradiction
  | cons e es =>
    rw [grouped, List.any_cons]
    induction es generalizing e with
    | nil => simp
    | cons d es ih =>
      rw [List.foldl_cons, ih (.or e d) (by simp), Expr.holds_or, List.any_cons, Bool.or_assoc]

theorem Alternatives.holds_expr {s : List Token} {gss : List (List Expr)} (h : Alternatives s gss)
    (row : Row) : (alternativesExpr gss).holds row = anyHolds gss row := by
  have hne : ∀ gs ∈ gss, gs ≠ [] := by
    induction h with
    | part h => simpa using h.ne_nil
    | snoc _ h ih =>
      intro gs hgs
      rcases List.mem_append.1 hgs with hgs | hgs
      · exact ih gs hgs
      · rw [List.mem_singleton.1 hgs]
        exact h.ne_nil
  rw [alternativesExpr, holds_grouped_or (by simpa using h.ne_nil), List.any_map, anyHolds]
  rw [Bool.eq_iff_iff, List.any_eq_true, List.any_eq_true]
  constructor
  · rintro ⟨gs, hgs, hh⟩
    exact ⟨gs, hgs, by rwa [← holds_grouped_and (hne gs hgs)]⟩
  · rintro ⟨gs, hgs, hh⟩
    exact ⟨gs, hgs, by rwa [Function.comp_apply, holds_grouped_and (hne gs hgs)]⟩

theorem anyHolds_splice {gss hss : List (List Expr)} {row : Row} (hg : anyHolds gss row = true)
    (hh : anyHolds hss row = true) : anyHolds (splice gss hss) row = true := by
  induction gss with
  | nil => exact hh
  | cons g gss ih =>
    cases gss with
    | nil =>
      cases hss with
      | nil => exact hg
      | cons h hss =>
        simp only [anyHolds, splice, List.any_cons, List.all_append, List.any_nil,
          Bool.or_false] at hg hh ⊢
        rw [hg, Bool.true_and]
        exact hh
    | cons g' gss =>
      rw [splice]
      · simp only [anyHolds, List.any_cons, Bool.or_eq_true] at hg ih ⊢
        exact hg.imp id ih
      · simp

end EventCalendar.Sql
