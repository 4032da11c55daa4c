import EventCalendar.Listing.Execution
import EventCalendar.Proofs.Alternatives
import EventCalendar.Proofs.Tokens

/-!
# The text of a statement

What a statement selects by and sorts by, said on the texts that it is put together from:

* `tokens?_eq`: the tokens of the conditions one after the other, each on its own.
* `pasted`: **the alternatives that the conditions have together**.
* `selection?_eq`: the reading of a statement whose conditions can be read.
-/

set_option autoImplicit false

namespace EventCalendar.Sql

/-! ## Orders -/

theorem direction_length (s : List Token) : (direction s).2.length ≤ s.length := by
  unfold direction
  split <;> simp

theorem nullPlace_length (s : List Token) : (nullPlace s).2.length ≤ s.length := by
  unfold nullPlace
  split <;> simp <;> omega

/-- The keys of an order, read with enough fuel. -/
def orderOf? (s : List Token) : Option (List OrderTerm) :=
  orderTerms (2 * s.length + 2) (s.length + 1) s

theorem orderKey?_local {n : Nat} {s r : List Token} {e : Expr}
    (h : orderKey? n s = some (e, r)) (hr : NoDot r) :
    r.length < s.length ∧ ∀ m, 2 * s.length + 2 ≤ m → orderKey? m s = some (e, r) := by
  unfold orderKey? at h
  obtain ⟨⟨a, rest⟩, ha, h⟩ := Option.bind_eq_some_iff.1 h
  have hrest : rest = r := by
    simp only at h
    split at h
    · split at h
      · cases h
      · obtain ⟨c, -, hc⟩ := Option.map_eq_some_iff.1 h
        exact (Prod.mk.inj hc).2
    · exact (Prod.mk.inj (Option.some.inj h)).2
  subst hrest
  obtain ⟨-, p, hp, hs, -⟩ := (reads_locally n).expression ha
  refine ⟨?_, fun m hm => ?_⟩
  · have := List.length_pos_iff.2 hp
    rw [hs, List.length_append]
    omega
  · rw [orderKey?, expression_of_le ha hr hm]
    exact h

theorem orderTerms_of_le {n k m j : Nat} {s : List Token} {terms : List OrderTerm}
    (h : orderTerms n k s = some terms) (hm : 2 * s.length + 2 ≤ m) (hj : s.length + 1 ≤ j) :
    orderTerms m j s = some terms := by
  induction k generalizing s terms j with
  | zero => simp [orderTerms] at h
  | succ k ih =>
    obtain ⟨j, rfl⟩ : ∃ i, j = i + 1 := ⟨j - 1, by omega⟩
    unfold orderTerms at h ⊢
    obtain ⟨⟨key, rest⟩, hkey, h⟩ := Option.bind_eq_some_iff.1 h
    have hdot : NoDot rest := by
      intro hdot
      cases rest with
      | nil => cases hdot
      | cons t rest =>
        cases hdot
        cases h
    obtain ⟨hlen, hkey'⟩ := orderKey?_local hkey hdot
    have hd := direction_length rest
    have hn := nullPlace_length (direction rest).2
    rw [hkey' m hm]
    simp only [Option.bind_eq_bind, Option.bind_some] at h ⊢
    split at h
    · exact h
    · rename_i more hmore
      obtain ⟨terms', hterms, h⟩ := Option.bind_eq_some_iff.1 h
      rw [hmore, List.length_cons] at hn
      rw [ih hterms (by omega) (by omega)]
      exact h
    · cases h

theorem orderTerms_eq_orderOf? {n k : Nat} {s : List Token} (hn : 2 * s.length + 2 ≤ n)
    (hk : s.length + 1 ≤ k) : orderTerms n k s = orderOf? s := by
  cases h : orderTerms n k s with
  | some terms => exact (orderTerms_of_le h (Nat.le_refl _) (Nat.le_refl _)).symm
  | none =>
    cases h' : orderOf? s with
    | none => rfl
    | some terms => rw [orderTerms_of_le h' hn hk] at h; cases h

/-- A condition in front of an order is read to its end. -/
theorem selection?_append {s order : List Token} {e : Expr} (h : Parses orLevel s e) :
    selection? (s ++ .word "order" :: .word "by" :: order)
      = (orderOf? order).map fun terms => ⟨e, terms⟩ := by
  have hcondition := h.append (r := .word "order" :: .word "by" :: order)
    (m := 4 * (s ++ .word "order" :: .word "by" :: order).length + 4)
    (stops_of_opLevel?_eq_none rfl _) (by decide) (by simp [NoDot]) (by omega)
  have horder : orderTerms (4 * (s ++ .word "order" :: .word "by" :: order).length + 4)
      (order.length + 1) order = orderOf? order :=
    orderTerms_eq_orderOf? (by simp; omega) (Nat.le_refl _)
  rw [selection?]
  simp only [hcondition, Option.bind_eq_bind, Option.bind_some, horder]
  cases orderOf? order <;> rfl

end EventCalendar.Sql

namespace EventCalendar.Listing

open Sql

/-! ## Tokens of a statement -/

def piecesOf (items : List Item) : List Piece := items.flatMap Item.pieces

/-- The tokens of a condition on its own. -/
def conditionTokens? (params : NamedValues) (c : String) : Option (List Token) :=
  Token.ofPieces (piecesOf (Item.ofText params c))

def visibleTokens : List Token :=
  [.word "e", .symbol .dot, .word "visible", .symbol (.comparison .eq), .value (.int 1)]

namespace Statement

def orderTokens? (s : Statement) : Option (List Token) := Token.ofPieces (piecesOf s.orderItems)

end Statement

theorem ofPieces_blank_cons (u : List Piece) :
    Token.ofPieces (Token.blank :: u) = Token.ofPieces u := by
  have hnil : Token.ofPieces [] = some [] := rfl
  rw [← List.nil_append (Token.blank :: u), Token.ofPieces_append_blank hnil]
  simp

/-- The pieces begin with a blank. -/
def Spaced (u : List Piece) : Prop := u.head? = some Token.blank

/-- A text in front of a spaced one has the same tokens as on its own. -/
theorem ofPieces_append {s u : List Piece} {tokens : List Token}
    (hs : Token.ofPieces s = some tokens) (hu : Spaced u) :
    Token.ofPieces (s ++ u) = (Token.ofPieces u).map (tokens ++ ·) := by
  cases u with
  | nil => cases hu
  | cons x u =>
    cases hu
    rw [Token.ofPieces_append_blank hs, ofPieces_blank_cons]

theorem ofPieces_keyword {s u : List Piece} {tokens : List Token}
    (hs : Token.ofPieces s = some tokens) :
    Token.ofPieces (Token.blank :: (s ++ Token.blank :: u))
      = (Token.ofPieces u).map (tokens ++ ·) := by
  rw [ofPieces_blank_cons, Token.ofPieces_append_blank hs]

theorem ofPieces_and (u : List Piece) :
    Token.ofPieces (piecesOf (Item.plain " AND ") ++ u)
      = (Token.ofPieces u).map (.word "and" :: ·) :=
  ofPieces_keyword (s := [.char 'A', .char 'N', .char 'D']) rfl

theorem ofPieces_orderBy (u : List Piece) :
    Token.ofPieces (piecesOf (Item.plain " ORDER BY ") ++ u)
      = (Token.ofPieces u).map fun rest => .word "order" :: .word "by" :: rest :=
  ofPieces_keyword (s := "ORDER BY".toList.map .char) rfl

theorem ofPieces_visible :
    Token.ofPieces (piecesOf (Item.equals "e" .visible 1)) = some visibleTokens := rfl

/-- The tokens of a list of conditions, each after `AND`. -/
def conjoined (tokens : List (List Token)) : List Token := tokens.flatMap (.word "and" :: ·)

/-- The tokens that follow the predicates: those of the conditions and of the visibility. -/
def tailTokens (showHidden : Bool) (conditions : List (List Token)) : List Token :=
  conjoined (conditions ++ if showHidden then [] else [visibleTokens])

theorem ofPieces_conditions {params : NamedValues} {tokensOf : String → List Token}
    {conditions : List String} (h : ∀ c ∈ conditions, conditionTokens? params c = some (tokensOf c))
    {u : List Piece} (hu : Spaced u) :
    Token.ofPieces (piecesOf (conditions.flatMap fun c => Item.plain " AND " ++ Item.ofText params c)
        ++ u)
      = (Token.ofPieces u).map (conjoined (conditions.map tokensOf) ++ ·) := by
  induction conditions with
  | nil => simp [piecesOf, conjoined]
  | cons c conditions ih =>
    obtain ⟨hc, h⟩ := List.forall_mem_cons.1 h
    have hspaced : Spaced (piecesOf (conditions.flatMap fun c =>
        Item.plain " AND " ++ Item.ofText params c) ++ u) := by
      cases conditions with
      | nil => exact hu
      | cons c' conditions => rfl
    have hsplit : piecesOf ((c :: conditions).flatMap fun c =>
          Item.plain " AND " ++ Item.ofText params c) ++ u
        = piecesOf (Item.plain " AND ") ++ (piecesOf (Item.ofText params c)
          ++ (piecesOf (conditions.flatMap fun c => Item.plain " AND " ++ Item.ofText params c)
            ++ u)) := by
      simp [piecesOf]
    rw [hsplit, ofPieces_and, ofPieces_append hc hspaced, ih h]
    simp [conjoined, Function.comp_def]

/-- **The tokens of a statement** are those of its texts, each on its own. -/
theorem Statement.tokens?_eq {s : Statement} {tokensOf : String → List Token}
    (h : ∀ c ∈ s.conditions, conditionTokens? s.options.params c = some (tokensOf c)) :
    s.tokens? = s.orderTokens?.map fun order =>
      .whole moduleRule :: .word "and" :: .whole (dimensionExpr s.filters)
        :: (tailTokens s.options.showHidden (s.conditions.map tokensOf)
          ++ .word "order" :: .word "by" :: order) := by
  have horder : Token.ofPieces (piecesOf (Item.plain " ORDER BY ") ++ piecesOf s.orderItems)
      = s.orderTokens?.map fun order => .word "order" :: .word "by" :: order := ofPieces_orderBy _
  have hspaced : Spaced (piecesOf (Item.plain " ORDER BY ") ++ piecesOf s.orderItems) := rfl
  have hsplit : piecesOf s.tail
      = piecesOf (s.conditions.flatMap fun c => Item.plain " AND " ++ Item.ofText s.options.params c)
        ++ (piecesOf (if s.options.showHidden then []
            else Item.plain " AND " ++ Item.equals "e" .visible 1)
          ++ (piecesOf (Item.plain " ORDER BY ") ++ piecesOf s.orderItems)) := by
    simp only [tail, piecesOf, List.flatMap_append, List.append_assoc]
  have htail : Token.ofPieces (piecesOf s.tail) = s.orderTokens?.map fun order =>
      tailTokens s.options.showHidden (s.conditions.map tokensOf)
        ++ .word "order" :: .word "by" :: order := by
    rw [hsplit]
    cases s.options.showHidden with
    | true =>
      rw [if_pos rfl, show piecesOf [] = [] from rfl, List.nil_append,
        ofPieces_conditions h hspaced, horder]
      simp [tailTokens, Function.comp_def]
    | false =>
      rw [ofPieces_conditions h (by rfl)]
      simp only [Bool.false_eq_true, if_false]
      have hvisible : piecesOf (Item.plain " AND " ++ Item.equals "e" .visible 1)
          = piecesOf (Item.plain " AND ") ++ piecesOf (Item.equals "e" .visible 1) := by
        simp [piecesOf]
      rw [hvisible, List.append_assoc, ofPieces_and, ofPieces_append ofPieces_visible hspaced, horder]
      simp [tailTokens, conjoined, Function.comp_def]
  rw [tokens?, show s.tail.flatMap Item.pieces = piecesOf s.tail from rfl, htail, Option.map_map]
  rfl

/-! ## Selection of a statement -/

/-- The alternatives of texts with `AND` between them, after those of the predicates. -/
def pasted (f : Filters) (showHidden : Bool) (readings : List (List (List Expr))) :
    List (List Expr) :=
  (readings ++ if showHidden then [] else [[[visibleExpr]]]).foldl splice
    [[moduleRule, dimensionExpr f]]

theorem parses_visibleTokens : Parses (andLevel + 1) visibleTokens visibleExpr := ⟨12, rfl⟩

theorem alternatives_predicates (f : Filters) :
    Alternatives [.whole moduleRule, .word "and", .whole (dimensionExpr f)]
      [[moduleRule, dimensionExpr f]] :=
  .part (.snoc (s := [.whole moduleRule]) (.part ⟨2, rfl⟩) (t := [.whole (dimensionExpr f)])
    ⟨2, rfl⟩)

theorem alternatives_conjoined {s : List Token} {gss : List (List Expr)} {α : Type}
    {tokensOf : α → List Token} {reading : α → List (List Expr)} {conditions : List α}
    (hs : Alternatives s gss) (h : ∀ c ∈ conditions, Alternatives (tokensOf c) (reading c)) :
    Alternatives (s ++ conjoined (conditions.map tokensOf))
      ((conditions.map reading).foldl splice gss) := by
  induction conditions generalizing s gss with
  | nil => simpa [conjoined] using hs
  | cons c conditions ih =>
    obtain ⟨hc, h⟩ := List.forall_mem_cons.1 h
    have := ih (hs.join hc) h
    simpa [conjoined] using this

/-- **The selection of a statement** whose conditions can be read, each on its own. -/
theorem Statement.selection?_eq {s : Statement} {tokensOf : String → List Token}
    {reading : String → List (List Expr)}
    (h : ∀ c ∈ s.conditions, conditionTokens? s.options.params c = some (tokensOf c))
    (hread : ∀ c ∈ s.conditions, Alternatives (tokensOf c) (reading c)) :
    ∃ e : Expr,
      (∀ row, e.holds row
        = anyHolds (pasted s.filters s.options.showHidden (s.conditions.map reading)) row) ∧
      s.selection? = (s.orderTokens?.bind orderOf?).map fun order => ⟨e, order⟩ := by
  have htail : Alternatives
      (.whole moduleRule :: .word "and" :: .whole (dimensionExpr s.filters)
        :: tailTokens s.options.showHidden (s.conditions.map tokensOf))
      (pasted s.filters s.options.showHidden (s.conditions.map reading)) := by
    have hconditions := alternatives_conjoined (alternatives_predicates s.filters) hread
    cases hs : s.options.showHidden with
    | true => simpa [tailTokens, pasted] using hconditions
    | false =>
      have := hconditions.join (.factor parses_visibleTokens)
      simpa [tailTokens, pasted, conjoined] using this
  refine ⟨_, htail.holds_expr, ?_⟩
  rw [selection?, tokens?_eq h]
  cases s.orderTokens? with
  | none => rfl
  | some order => exact selection?_append (parses_iff_alternatives.2 ⟨_, htail, rfl⟩)

end EventCalendar.Listing
