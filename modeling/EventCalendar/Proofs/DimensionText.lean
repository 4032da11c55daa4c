import EventCalendar.Proofs.CompiledStatement

/-!
# The text of the dimension condition

The dimension condition is written from the predicates, and read as any other condition:

* `ofPieces_joined`, `chain_joined`: texts with a keyword between any two of them.
* `ofPieces_keyTest`, `parses_keyTokens`: the tokens of a key test, and what they are read as.
* `exists_dimension_reading`: **the text of the dimension condition says what the predicates say**,
  as long as there are cells for all ids.
-/

set_option autoImplicit false

namespace EventCalendar.Sql

/-! ## Conditions on their own -/

/-- The condition that the tokens are, read to their end. -/
def wholeCondition? (s : List Token) : Option Expr :=
  match expression (2 * s.length + 2) orLevel s with
  | some (e, []) => some e
  | _ => none

theorem wholeCondition?_eq_some {s : List Token} {e : Expr} (h : Parses orLevel s e) :
    wholeCondition? s = some e := by
  obtain ⟨n, h⟩ := h
  rw [wholeCondition?, expression_of_le h (by simp [NoDot]) (Nat.le_refl _)]

/-! ## Lists of values -/

/-- Constants with commas between, up to the closing parenthesis. -/
def listTokens : List Cell → List Token
  | [] => [.symbol .rightParen]
  | [c] => [.value c, .symbol .rightParen]
  | c :: rest => .value c :: .symbol .comma :: listTokens rest

/-- A value is an expression of its own in front of tokens that carry on nothing. -/
theorem expression_value (c : Cell) {r : List Token} (hr : Stops orLevel r) (n : Nat) :
    expression (n + 2) orLevel (.value c :: r) = some (.constant c, r) := by
  rw [expression_succ, show operand (n + 1) (.value c :: r) = some (.constant c, r) from rfl,
    Option.bind_some, continued_of_stops hr]

theorem listItems_listTokens (cells : List Cell) (n : Nat) :
    listItems (cells.length + n + 3) (listTokens cells) = some (cells.map .constant, []) := by
  induction cells with
  | nil => rfl
  | cons c cells ih =>
    have hfuel : (c :: cells).length + n + 3 = (cells.length + n + 3) + 1 := by
      rw [List.length_cons]
      omega
    have hvalue := fun r (hr : opLevel? r = none) =>
      expression_value c (stops_of_opLevel?_eq_none hr _) (cells.length + n + 1)
    rw [hfuel]
    cases cells with
    | nil =>
      rw [listTokens, listItems, hvalue _ rfl]
      · rfl
      · simp
    | cons d cells =>
      -- A list goes on with a value after each comma.
      obtain ⟨rest, hrest⟩ : ∃ rest, listTokens (d :: cells) = .value d :: rest := by
        cases cells <;> exact ⟨_, rfl⟩
      rw [hrest] at ih
      rw [listTokens, hrest, listItems, hvalue _ rfl]
      · simp only [Option.bind_eq_bind, Option.bind_some, ih]
        rfl
      all_goals simp

/-! ## Tokens one by one -/

namespace Token

theorem ofPieces_cons {x : Piece} {s : List Piece} {t : Token} (hx : isGap x = false)
    (h : next? (x :: s) = some (t, s)) : ofPieces (x :: s) = (ofPieces s).map (t :: ·) := by
  have hs : (x :: s).dropWhile isGap = x :: s := by rw [List.dropWhile_cons, hx]; rfl
  rw [ofPieces_eq (by simp [hs]), hs, h, Option.bind_some]

end Token

end EventCalendar.Sql

namespace EventCalendar.Listing

open Sql

/-! ## Joined texts -/

/-- Tokens with a keyword between any two lists of them. -/
def joinedTokens (word : String) : List (List Token) → List Token
  | [] => []
  | [tokens] => tokens
  | tokens :: rest => tokens ++ .word word :: joinedTokens word rest

/-- The separator is a keyword between blanks. -/
structure IsKeyword (separator word : String) : Prop where
  spaced : Spaced (piecesOf (Item.plain separator))
  tokens : ∀ u, Token.ofPieces (piecesOf (Item.plain separator) ++ u)
    = (Token.ofPieces u).map (.word word :: ·)

theorem isKeyword_and : IsKeyword " AND " "and" := ⟨rfl, ofPieces_and⟩

theorem isKeyword_or : IsKeyword " OR " "or" :=
  ⟨rfl, fun _ => ofPieces_keyword (s := [.char 'O', .char 'R']) rfl⟩

section
variable {α : Type} {separator word : String} {itemsOf : α → List Item} {tokensOf : α → List Token}

/-- **The tokens of joined texts** are those of the texts, each on its own. -/
theorem ofPieces_joined (hseparator : IsKeyword separator word) {xs : List α}
    (h : ∀ x ∈ xs, Token.ofPieces (piecesOf (itemsOf x)) = some (tokensOf x)) :
    Token.ofPieces (piecesOf (Item.joined separator (xs.map itemsOf)))
      = some (joinedTokens word (xs.map tokensOf)) := by
  induction xs with
  | nil => rfl
  | cons x xs ih =>
    obtain ⟨hx, h⟩ := List.forall_mem_cons.1 h
    cases xs with
    | nil => exact hx
    | cons y xs =>
      have hsplit : piecesOf (Item.joined separator ((x :: y :: xs).map itemsOf))
          = piecesOf (itemsOf x) ++ (piecesOf (Item.plain separator)
            ++ piecesOf (Item.joined separator ((y :: xs).map itemsOf))) := by
        simp [piecesOf, Item.joined]
      have hspaced : Spaced (piecesOf (Item.plain separator)
          ++ piecesOf (Item.joined separator ((y :: xs).map itemsOf))) := by
        rw [Spaced, List.head?_append, show (piecesOf (Item.plain separator)).head? = _ from
          hseparator.spaced]
        rfl
      rw [hsplit, ofPieces_append hx hspaced, hseparator.tokens, ih h]
      simp [joinedTokens]

theorem chain_joined {β : Type} {Part : List Token → β → Prop} {reading : α → β} {xs : List α}
    (hne : xs ≠ []) (h : ∀ x ∈ xs, Part (tokensOf x) (reading x)) :
    Chain (.word word) Part (joinedTokens word (xs.map tokensOf)) (xs.map reading) := by
  induction xs with
  | nil => exact absurd rfl hne
  | cons x xs ih =>
    obtain ⟨hx, h⟩ := List.forall_mem_cons.1 h
    cases xs with
    | nil => exact .part hx
    | cons y xs => exact Chain.append (.part hx) (ih (by simp) h)

end

/-! ## Key tests -/

/-- The cell that an id is bound as; null if there is none. -/
def cellOf (i : Int) : Cell := (Cell.ofValue (.int i)).toOption.getD .null

theorem cellOf_of_fits {i : Int} (h : Cell.fits i = true) : cellOf i = .int i := by
  simp [cellOf, Cell.ofValue, h, Except.toOption]

/-- A list of ids up to its closing parenthesis; a query without rows if there are none. -/
def idTokens : List Int → List Token
  | [] => [.emptyQuery, .symbol .rightParen]
  | ids => listTokens (ids.map cellOf)

namespace KeyTest

def operandTokens : KeyTest → List Token
  | .isZero _ => [.symbol (.comparison .eq), .value (.int 0)]
  | .nonzero _ => [.symbol (.comparison .ne), .value (.int 0)]
  | .among _ ids => .word "in" :: .symbol .leftParen :: idTokens ids.toList

def tokens (k : KeyTest) : List Token :=
  .word "e" :: .symbol .dot :: .word k.key.label :: k.operandTokens

/-- The condition that a test is read as: its ids are what they are bound as. -/
def boundExpr : KeyTest → Expr
  | .among key ids =>
    .among (.column (.event key)) (ids.toList.map fun i => .constant (cellOf i))
  | k => k.expr

end KeyTest

theorem ofPieces_listPieces (ids : List Int) :
    Token.ofPieces (listPieces (ids.map .int) ++ [.char ')'])
      = some (listTokens (ids.map cellOf)) := by
  have hvalue : ∀ (i : Int) (u : List Piece), Token.ofPieces (valuePiece (.int i) :: u)
      = (Token.ofPieces u).map (.value (cellOf i) :: ·) := fun _ _ => Token.ofPieces_cons rfl rfl
  have hcomma : ∀ u : List Piece, Token.ofPieces (.char ',' :: u)
      = (Token.ofPieces u).map (.symbol .comma :: ·) := fun _ => Token.ofPieces_cons rfl rfl
  induction ids with
  | nil => rfl
  | cons i ids ih =>
    cases ids with
    | nil =>
      refine (hvalue i _).trans ?_
      rfl
    | cons j ids =>
      refine (hvalue i _).trans ?_
      refine (congrArg _ ((hcomma _).trans (congrArg _ ih))).trans ?_
      rfl

theorem ofPieces_ids (ids : List Int) :
    Token.ofPieces (Binding.expanding (ids.map .int)).pieces
      = some (.symbol .leftParen :: idTokens ids) := by
  have hvalues : listValues? (ids.map .int) = some (ids.map .int) := Binding.values?_ints ids
  rw [Binding.pieces, hvalues, Option.getD_some]
  cases ids with
  | nil => rfl
  | cons i rest =>
    have hparen : ∀ u : List Piece, Token.ofPieces (.char '(' :: u)
        = (Token.ofPieces u).map (.symbol .leftParen :: ·) := fun _ => Token.ofPieces_cons rfl rfl
    exact (hparen _).trans (congrArg _ (ofPieces_listPieces (i :: rest)))

theorem ofPieces_keyTest (k : KeyTest) :
    Token.ofPieces (piecesOf (k.items "e")) = some k.tokens := by
  cases k with
  | isZero key => cases key <;> rfl
  | nonzero key => cases key <;> rfl
  | among key ids =>
    have hkey : Token.ofPieces (piecesOf (Item.column "e" key ++ Item.plain " IN"))
        = some [.word "e", .symbol .dot, .word key.label, .word "in"] := by cases key <;> rfl
    have hsplit : piecesOf ((KeyTest.among key ids).items "e")
        = piecesOf (Item.column "e" key ++ Item.plain " IN")
          ++ Token.blank :: (Binding.expanding (ids.toList.map .int)).pieces := by
      have hplain : Item.plain " IN " = Item.plain " IN" ++ [.char ' '] := rfl
      simp [KeyTest.items, piecesOf, hplain, Item.pieces, Item.ofColumn, Token.blank]
    rw [hsplit, Token.ofPieces_append_blank hkey, ofPieces_ids]
    rfl

theorem exists_listItems_ids (ids : List Int) :
    ∃ n items, listItems n (idTokens ids) = some (items, []) ∧
      ∀ e, membership e items = .among e (ids.map fun i => .constant (cellOf i)) := by
  cases ids with
  | nil => exact ⟨4, [.emptyQuery], rfl, fun e => rfl⟩
  | cons i rest =>
    refine ⟨_, _, listItems_listTokens ((i :: rest).map cellOf) 0, fun e => ?_⟩
    rw [List.map_map]
    cases rest <;> rfl

/-- **A key test is read as it is meant.** -/
theorem parses_keyTokens (k : KeyTest) : Parses (andLevel + 1) k.tokens k.boundExpr := by
  cases k with
  | isZero key => exact ⟨12, by cases key <;> rfl⟩
  | nonzero key => exact ⟨12, by cases key <;> rfl⟩
  | among key ids =>
    have hoperand : ∀ n r, operand (n + 1) (.word "e" :: .symbol .dot :: .word key.label :: r)
        = some (.column (.event key), r) := by
      intro n r
      cases key <;> rfl
    obtain ⟨n, items, hitems, hmembership⟩ := exists_listItems_ids ids.toList
    have hin : extension? (.word "in" :: .symbol .leftParen :: idTokens ids.toList)
        = some (equalityLevel, .listed membership, idTokens ids.toList) := rfl
    cases n with
    | zero => simp [listItems] at hitems
    | succ n =>
      refine ⟨n + 3, ?_⟩
      rw [KeyTest.tokens, KeyTest.operandTokens, KeyTest.key, expression_succ, hoperand,
        Option.bind_some, continued_of_operator hin (by decide), Extension.read, hitems,
        Option.map_some, Option.bind_some, continued_of_stops (stops_of_opLevel?_eq_none rfl _)]
      exact congrArg (fun e => some (e, [])) (hmembership _)

/-! ## The dimension condition -/

namespace Predicate

def tokens (p : Predicate) : List Token := joinedTokens "and" (p.map KeyTest.tokens)

theorem ne_nil {d : Dimension} {f : FilterSpec} {p : Predicate} (h : predicate? d f = some p) :
    p ≠ [] := List.ne_nil_of_mem (mem_predicate? h).1

end Predicate

def dimensionTokens (f : Filters) : List Token :=
  joinedTokens "or" ((predicates f).map Predicate.tokens)

theorem ofPieces_dimension (f : Filters) :
    Token.ofPieces (piecesOf (disjunctionItems "e" false (predicates f)))
      = some (dimensionTokens f) :=
  ofPieces_joined isKeyword_or fun _ _ => ofPieces_joined isKeyword_and fun k _ =>
    ofPieces_keyTest k

/-- The condition on bound values is the condition on the ids if there are cells for them. -/
theorem boundExpr_of_fits {f : Filters} (hfits : f.Fits) {p : Predicate} (hp : p ∈ predicates f)
    {k : KeyTest} (hk : k ∈ p) : k.boundExpr = k.expr := by
  obtain ⟨d, hd⟩ := mem_predicates_iff.1 hp
  rcases (mem_predicate? hd).2 k hk with rfl | ⟨c, rfl⟩
  · unfold KeyTest.ofFilter
    split
    · rfl
    · rename_i hall
      have hspecific : (f.get d).mode = .specific := by
        cases hm : (f.get d).mode with
        | none =>
          rw [predicate?_eq_none_iff.2 (by rw [FilterSpec.isNone, hm]; rfl)] at hd
          cases hd
        | all => exact absurd hm hall
        | specific => rfl
      refine congrArg (Expr.among _) (List.map_congr_left fun i hi => ?_)
      rw [cellOf_of_fits (hfits d hspecific i hi)]
  · rfl

/-- **The text of the dimension condition says what the predicates say.** -/
theorem exists_dimension_reading {f : Filters} (hactive : f.allNone = false) :
    ∃ e, Parses orLevel (dimensionTokens f) e ∧
      (f.Fits → ∀ row, e.holds row = (dimensionExpr f).holds row) := by
  have hne : predicates f ≠ [] := by
    rw [Ne, predicates_eq_nil_iff, hactive]
    decide
  have halternatives : Alternatives (dimensionTokens f)
      ((predicates f).map fun p => p.map KeyTest.boundExpr) := by
    refine chain_joined hne fun p hp => chain_joined ?_ fun k _ => parses_keyTokens k
    obtain ⟨d, hd⟩ := mem_predicates_iff.1 hp
    exact Predicate.ne_nil hd
  refine ⟨_, parses_iff_alternatives.2 ⟨_, halternatives, rfl⟩, fun hfits row => ?_⟩
  have hexprs : (predicates f).map (fun p => p.map KeyTest.boundExpr)
      = (predicates f).map fun p => p.map KeyTest.expr :=
    List.map_congr_left fun p hp => List.map_congr_left fun k hk => boundExpr_of_fits hfits hp hk
  rw [halternatives.holds_expr, hexprs, anyHolds, dimensionExpr, Expr.holds_disjunction,
    List.any_map, List.any_map]
  simp only [Function.comp_def, Expr.holds_conjunction]

end EventCalendar.Listing
