import EventCalendar.Sql.Reader

/-!
# Reading in context

What the reader makes of the tokens at the beginning of a text does not depend on the tokens after
them, as long as these do not carry on what was read:

* `extension?`, `continued_succ`: the operators that may follow an operand, all read in one way.
* `Stops`: no operator of a level or tighter follows. `Follows` compares two continuations.
* `reads_locally`: **reading is local**: a reading of one text is one of every text that begins with
  the same tokens and follows them in the same way, however much fuel is left.
-/

set_option autoImplicit false

namespace EventCalendar.Sql

/-! ## Operators after an operand -/

/-- What an operator that follows an operand asks for next. -/
inductive Extension
  | complete (f : Expr → Expr)
  | operand (f : Expr → Expr → Expr)
  | listed (f : Expr → List Expr → Expr)
  | between (f : Expr → Expr → Expr → Expr)

/-- The operator at the beginning of the tokens, with its level and the tokens after it. -/
def extension? : List Token → Option (Nat × Extension × List Token)
  | .word "is" :: .word "not" :: rest =>
    some (equalityLevel, .operand fun e b => .not (.is e b), rest)
  | .word "is" :: rest => some (equalityLevel, .operand .is, rest)
  | .word "isnull" :: rest => some (equalityLevel, .complete fun e => e.isNull, rest)
  | .word "notnull" :: rest => some (equalityLevel, .complete fun e => .not e.isNull, rest)
  | .word "not" :: .word "null" :: rest =>
    some (equalityLevel, .complete fun e => .not e.isNull, rest)
  | .word "in" :: .symbol .leftParen :: rest => some (equalityLevel, .listed membership, rest)
  | .word "not" :: .word "in" :: .symbol .leftParen :: rest =>
    some (equalityLevel, .listed fun e items => .not (membership e items), rest)
  | .word "between" :: rest => some (equalityLevel, .between betweenBounds, rest)
  | .word "not" :: .word "between" :: rest =>
    some (equalityLevel, .between fun e lo hi => .not (betweenBounds e lo hi), rest)
  | token :: rest => (binary? token).map fun (own, make) => (own, .operand make, rest)
  | [] => none

/-- Reads what an operator of level `own` asks for. -/
def Extension.read (fuel own : Nat) (e : Expr) (s : List Token) :
    Extension → Option (Expr × List Token)
  | .complete f => some (f e, s)
  | .operand f => (expression fuel (own + 1) s).map fun (b, rest) => (f e b, rest)
  | .listed f => (listItems fuel s).map fun (items, rest) => (f e items, rest)
  | .between f => (bounds fuel s).map fun (lo, hi, rest) => (f e lo hi, rest)

theorem continued_succ (n l : Nat) (e : Expr) (s : List Token) :
    continued (n + 1) l e s = match extension? s with
      | none => some (e, s)
      | some (own, x, rest) =>
        if own < l then some (e, s)
        else (x.read n own e rest).bind fun found => continued n l found.1 found.2 := by
  have horder : equalityLevel + 1 = orderLevel := rfl
  fun_cases extension? s with
  | case1 rest | case2 rest =>
    simp only [continued, Extension.read, horder]
    split
    · rfl
    · cases expression n orderLevel rest <;> rfl
  | case3 | case4 | case5 =>
    simp only [continued, Extension.read]
    split <;> rfl
  | case6 rest | case7 rest =>
    simp only [continued, Extension.read]
    split
    · rfl
    · cases listItems n rest <;> rfl
  | case8 rest | case9 rest =>
    simp only [continued, Extension.read]
    split
    · rfl
    · cases bounds n rest <;> rfl
  | case10 token rest =>
    cases h : binary? token with
    | none => simp [continued, *]
    | some b =>
      simp only [continued, h, Option.map_some, Extension.read]
      split
      · rfl
      · cases expression n (b.1 + 1) rest <;> rfl
  | case11 => rfl

theorem extension?_of_binary {token : Token} {own : Nat} {make : Expr → Expr → Expr}
    (h : binary? token = some (own, make)) (rest : List Token) :
    extension? (token :: rest) = some (own, .operand make, rest) := by
  unfold binary? at h
  split at h <;> cases h <;> rfl

/-- The tokens `q` of an operator, in front of `rest`. -/
structure IsOperator (q : List Token) (own : Nat) (x : Extension) (rest : List Token) : Prop where
  nonempty : q ≠ []
  head_ne_dot : q.head? ≠ some (.symbol .dot)
  /-- Other tokens may stand after the operator, if an operand begins in the same way. -/
  transfer : ∀ r, ((∃ f, x = .operand f) → r.head? = rest.head?) →
    extension? (q ++ r) = some (own, x, r)
  between : (∃ f, x = .between f) → own = equalityLevel

theorem exists_isOperator {s rest : List Token} {own : Nat} {x : Extension}
    (h : extension? s = some (own, x, rest)) : ∃ q, s = q ++ rest ∧ IsOperator q own x rest := by
  revert h
  fun_cases extension? s with
  | case1 =>
    rintro ⟨⟩
    exact ⟨[.word "is", .word "not"], rfl, ⟨by simp, by simp, fun r _ => rfl, fun _ => rfl⟩⟩
  | case2 more hnot =>
    rintro ⟨⟩
    refine ⟨[.word "is"], rfl, ⟨by simp, by simp, fun r hr => ?_, fun _ => rfl⟩⟩
    have hr := hr ⟨_, rfl⟩
    cases r with
    | nil => rfl
    | cons t r =>
      cases rest with
      | nil => cases hr
      | cons u rest =>
        cases hr
        have : t ≠ .word "not" := fun ht => hnot rest (by rw [ht])
        simp [extension?, this]
  | case3 | case4 | case8 =>
    rintro ⟨⟩
    exact ⟨[_], rfl, ⟨by simp, by simp, fun r _ => rfl, fun _ => rfl⟩⟩
  | case5 | case6 | case9 =>
    rintro ⟨⟩
    exact ⟨[_, _], rfl, ⟨by simp, by simp, fun r _ => rfl, fun _ => rfl⟩⟩
  | case7 =>
    rintro ⟨⟩
    exact ⟨[_, _, _], rfl, ⟨by simp, by simp, fun r _ => rfl, fun _ => rfl⟩⟩
  | case10 token rest' =>
    intro h
    obtain ⟨⟨own', make⟩, hb, hx⟩ := Option.map_eq_some_iff.1 h
    cases hx
    refine ⟨[token], rfl, ⟨by simp, ?_, fun r _ => extension?_of_binary hb r, ?_⟩⟩
    · rintro ⟨⟩
      cases hb
    · rintro ⟨f, ⟨⟩⟩
  | case11 => rintro ⟨⟩

/-! ## Continuations -/

def opLevel? (s : List Token) : Option Nat := (extension? s).map (·.1)

/-- No operator of level `l` or tighter follows. -/
def Stops (l : Nat) (s : List Token) : Prop := ∀ own, opLevel? s = some own → own < l

theorem Stops.mono {l k : Nat} {s : List Token} (h : Stops l s) (hk : l ≤ k) : Stops k s :=
  fun own ho => Nat.lt_of_lt_of_le (h own ho) hk

/-- `r'` carries on what was read up to `r` no further than `r` does. -/
structure Follows (l : Nat) (r r' : List Token) : Prop where
  stops : Stops l r → Stops l r'
  /-- A factor that begins with `NOT` ends before both or before none. -/
  stopsFactor : Stops equalityLevel r → Stops equalityLevel r'
  noDot : r'.head? ≠ some (.symbol .dot)

theorem Follows.factor {l : Nat} {r r' : List Token} (h : Follows l r r') :
    Follows equalityLevel r r' := ⟨h.stopsFactor, h.stopsFactor, h.noDot⟩

theorem Follows.of_stops {k l : Nat} {r r' : List Token} (h : Stops k r') (hl : k ≤ l)
    (hk : k ≤ equalityLevel) (hdot : r'.head? ≠ some (.symbol .dot)) : Follows l r r' :=
  ⟨fun _ => h.mono hl, fun _ => h.mono hk, hdot⟩

theorem stops_of_opLevel?_eq_none {s : List Token} (h : opLevel? s = none) (l : Nat) :
    Stops l s := fun own ho => by
  rw [h] at ho
  cases ho

theorem stops_of_opLevel?_eq_some {own l : Nat} {s : List Token} (h : opLevel? s = some own)
    (hl : own < l) : Stops l s := fun own' ho => by
  rw [h] at ho
  cases ho
  exact hl

theorem Follows.of_closing {l : Nat} {r r' : List Token} (h : opLevel? r' = none)
    (hdot : r'.head? ≠ some (.symbol .dot)) : Follows l r r' :=
  .of_stops (stops_of_opLevel?_eq_none h 0) (Nat.zero_le _) (Nat.zero_le _) hdot

theorem opLevel?_and (s : List Token) : opLevel? (.word "and" :: s) = some andLevel := rfl

/-- The tokens `p` begin with an operator that is complete within them, or there are none. -/
def OpensAlike (p r : List Token) : Prop :=
  p ≠ [] → p.head? ≠ some (.symbol .dot) ∧ ∀ r', opLevel? (p ++ r') = opLevel? (p ++ r)

theorem Follows.append {l : Nat} {p r r' : List Token} (hp : OpensAlike p r)
    (h : p = [] → Follows l r r') : Follows l (p ++ r) (p ++ r') := by
  by_cases hnil : p = []
  · subst hnil
    exact h rfl
  · obtain ⟨hdot, hlevel⟩ := hp hnil
    have hstop : ∀ k, Stops k (p ++ r) → Stops k (p ++ r') := by
      intro k hk own ho
      exact hk own (by rw [← hlevel r', ho])
    refine ⟨hstop l, hstop _, ?_⟩
    cases p with
    | nil => contradiction
    | cons t p => exact hdot

/-! ## Local readings -/

section
variable {α : Type}

/-- The tokens `p` are read as `a` in front of every continuation in `F`, with fuel for `extra`
steps more than two for each token. -/
def ReadsAs (read : Nat → List Token → Option (α × List Token)) (extra : Nat)
    (F : List Token → Prop) (p : List Token) (a : α) : Prop :=
  ∀ r, F r → ∀ m, 2 * (p ++ r).length + extra ≤ m → read m (p ++ r) = some (a, r)

end

/-- What is read with `n` steps of fuel is read in every context alike. -/
structure ReadsLocally (n : Nat) : Prop where
  expression : ∀ {l s e r}, expression n l s = some (e, r) →
    Stops l r ∧ ∃ p, p ≠ [] ∧ s = p ++ r ∧ ReadsAs (fun m => expression m l) 2 (Follows l r) p e
  operand : ∀ {s e r}, operand n s = some (e, r) →
    ∃ p, p ≠ [] ∧ s = p ++ r ∧ ReadsAs operand 1 (Follows equalityLevel r) p e
  continued : ∀ {l a s e r}, continued n l a s = some (e, r) →
    Stops l r ∧ ∃ p, s = p ++ r ∧ OpensAlike p r ∧
      ReadsAs (fun m => continued m l a) 2 (Follows l r) p e
  listItems : ∀ {s es r}, listItems n s = some (es, r) →
    ∃ p, p ≠ [] ∧ s = p ++ r ∧ ReadsAs listItems 3 (fun _ => True) p es
  bounds : ∀ {s lo hi r}, bounds n s = some (lo, hi, r) →
    ∃ p, p ≠ [] ∧ s = p ++ r ∧ ∀ r', Follows orderLevel r r' →
      ∀ m, 2 * (p ++ r').length + 3 ≤ m → bounds m (p ++ r') = some (lo, hi, r')

/-! ## Steps -/

theorem expression_succ (n l : Nat) (s : List Token) :
    expression (n + 1) l s
      = (operand n s).bind fun found => continued n l found.1 found.2 := by
  rw [expression]
  cases operand n s <;> rfl

theorem continued_of_stops {l : Nat} {s : List Token} (h : Stops l s) (n : Nat) (e : Expr) :
    continued (n + 1) l e s = some (e, s) := by
  rw [continued_succ]
  cases hx : extension? s with
  | none => rfl
  | some found =>
    obtain ⟨own, x, rest⟩ := found
    exact if_pos (h own (by simp [opLevel?, hx]))

theorem continued_of_operator {l own : Nat} {s rest : List Token} {x : Extension}
    (hx : extension? s = some (own, x, rest)) (hl : ¬ own < l) (n : Nat) (e : Expr) :
    continued (n + 1) l e s
      = (x.read n own e rest).bind fun found => continued n l found.1 found.2 := by
  rw [continued_succ, hx]
  exact if_neg hl

theorem operand_minus {s : List Token} (h : ∀ k, s.head? ≠ some (.integer k)) (n : Nat) :
    operand (n + 1) (.symbol .minus :: s)
      = (operand n s).map fun found => (.negate found.1, found.2) := by
  have hs : ∀ k rest, s = .integer k :: rest → False := by
    rintro k rest rfl
    exact h k rfl
  rw [operand]
  · cases operand n s <;> rfl
  · exact hs

theorem operand_word {w : String} (hw : w ≠ "not") {s : List Token}
    (hdot : s.head? ≠ some (.symbol .dot)) (n : Nat) :
    operand (n + 1) (.word w :: s) = (wordOperand? w).map fun e => (e, s) := by
  rw [operand]
  · cases wordOperand? w <;> rfl
  · exact hw
  · rintro rest column rfl
    exact hdot rfl

section
variable {n : Nat} (hn : ReadsLocally n)
include hn

theorem expression_local {l : Nat} {s r : List Token} {e : Expr}
    (h : expression (n + 1) l s = some (e, r)) :
    Stops l r ∧ ∃ p, p ≠ [] ∧ s = p ++ r ∧ ReadsAs (fun m => expression m l) 2 (Follows l r) p e := by
  rw [expression_succ, Option.bind_eq_some_iff] at h
  obtain ⟨⟨a, mid⟩, ha, h⟩ := h
  obtain ⟨p₁, hp₁, rfl, read₁⟩ := hn.operand ha
  obtain ⟨hstop, p₂, rfl, hopens, read₂⟩ := hn.continued h
  refine ⟨hstop, p₁ ++ p₂, by simp [hp₁], by simp, fun r' hr m hm => ?_⟩
  have hlen : 0 < p₁.length := List.length_pos_iff.2 hp₁
  simp only [List.length_append] at hm
  obtain ⟨m, rfl⟩ : ∃ k, m = k + 1 := ⟨m - 1, by omega⟩
  have hmid : Follows equalityLevel (p₂ ++ r) (p₂ ++ r') := .append hopens fun _ => hr.factor
  simp only [expression_succ, List.append_assoc]
  rw [read₁ _ hmid m (by simp only [List.length_append]; omega), Option.bind_some]
  exact read₂ _ hr m (by simp only [List.length_append]; omega)

theorem Extension.read_local {own : Nat} {x : Extension} {a e : Expr} {s r : List Token}
    (h : x.read n own a s = some (e, r)) (hx : (∃ f, x = .between f) → own = equalityLevel) :
    ∃ p, s = p ++ r ∧ ((∃ f, x = .operand f) → p ≠ []) ∧
      ReadsAs (fun m s => x.read m own a s) 3 (Follows (own + 1) r) p e := by
  cases x with
  | complete f =>
    cases h
    exact ⟨[], rfl, by simp, fun r' _ m _ => rfl⟩
  | operand f =>
    obtain ⟨⟨b, r⟩, hb, he⟩ := Option.map_eq_some_iff.1 h
    cases he
    obtain ⟨-, p, hp, rfl, read⟩ := hn.expression hb
    refine ⟨p, rfl, fun _ => hp, fun r' hr m hm => ?_⟩
    have := read r' hr m (by omega)
    simp only [Extension.read, this, Option.map_some]
  | listed f =>
    obtain ⟨⟨items, r⟩, hb, he⟩ := Option.map_eq_some_iff.1 h
    cases he
    obtain ⟨p, hp, rfl, read⟩ := hn.listItems hb
    refine ⟨p, rfl, fun _ => hp, fun r' _ m hm => ?_⟩
    simp only [Extension.read, read r' trivial m hm, Option.map_some]
  | between f =>
    obtain ⟨⟨lo, hi, r⟩, hb, he⟩ := Option.map_eq_some_iff.1 h
    cases he
    obtain ⟨p, hp, rfl, read⟩ := hn.bounds hb
    refine ⟨p, rfl, fun _ => hp, fun r' hr m hm => ?_⟩
    rw [hx ⟨f, rfl⟩] at hr
    simp only [Extension.read, read r' hr m hm, Option.map_some]

theorem continued_local {l : Nat} {a e : Expr} {s r : List Token}
    (h : continued (n + 1) l a s = some (e, r)) :
    Stops l r ∧ ∃ p, s = p ++ r ∧ OpensAlike p r ∧
      ReadsAs (fun m => continued m l a) 2 (Follows l r) p e := by
  by_cases hs : Stops l s
  · rw [continued_of_stops hs] at h
    cases h
    refine ⟨hs, [], rfl, fun hnil => absurd rfl hnil, fun r' hr m hm => ?_⟩
    obtain ⟨m, rfl⟩ : ∃ k, m = k + 1 := ⟨m - 1, by omega⟩
    exact continued_of_stops (hr.stops hs) m a
  · obtain ⟨own, x, rest, hx, hl⟩ : ∃ own x rest, extension? s = some (own, x, rest) ∧ ¬ own < l := by
      simp only [Stops, opLevel?, Option.map_eq_some_iff, Classical.not_forall] at hs
      obtain ⟨own, ⟨⟨own', x, rest⟩, hx, rfl⟩, hl⟩ := hs
      exact ⟨_, x, rest, hx, hl⟩
    rw [continued_of_operator hx hl, Option.bind_eq_some_iff] at h
    obtain ⟨⟨b, mid⟩, hb, h⟩ := h
    obtain ⟨q, rfl, hq⟩ := exists_isOperator hx
    obtain ⟨p₁, rfl, hp₁, read₁⟩ := Extension.read_local hn hb hq.between
    obtain ⟨hstop, p₂, rfl, hopens, read₂⟩ := hn.continued h
    have hlen : 0 < q.length := List.length_pos_iff.2 hq.nonempty
    -- The operator is the same one before every continuation, since its operand is read as well.
    have htransfer : ∀ r', extension? (q ++ (p₁ ++ (p₂ ++ r')))
        = some (own, x, p₁ ++ (p₂ ++ r')) := by
      refine fun r' => hq.transfer _ fun hop => ?_
      cases p₁ with
      | nil => exact absurd rfl (hp₁ hop)
      | cons t p₁ => rfl
    refine ⟨hstop, q ++ p₁ ++ p₂, by simp, fun _ => ⟨?_, fun r' => ?_⟩, fun r' hr m hm => ?_⟩
    · cases q with
      | nil => exact absurd rfl hq.nonempty
      | cons t q => exact hq.head_ne_dot
    · simp only [opLevel?, List.append_assoc, htransfer, Option.map_some]
    · simp only [List.length_append] at hm
      obtain ⟨m, rfl⟩ : ∃ k, m = k + 1 := ⟨m - 1, by omega⟩
      have hmid : Follows (own + 1) (p₂ ++ r) (p₂ ++ r') := by
        refine .append hopens fun _ => ⟨fun _ => ?_, hr.stopsFactor, hr.noDot⟩
        exact (hr.stops hstop).mono (by omega)
      have hread : x.read m own a (p₁ ++ (p₂ ++ r')) = some (b, p₂ ++ r') :=
        read₁ _ hmid m (by simp only [List.length_append]; omega)
      simp only [List.append_assoc]
      rw [continued_of_operator (htransfer r') hl, hread, Option.bind_some]
      exact read₂ _ hr m (by simp only [List.length_append]; omega)

theorem operand_local {s r : List Token} {e : Expr} (h : operand (n + 1) s = some (e, r)) :
    ∃ p, p ≠ [] ∧ s = p ++ r ∧ ReadsAs operand 1 (Follows equalityLevel r) p e := by
  have step : ∀ {p : List Token},
      (∀ r' m, Follows equalityLevel r r' → 2 * (p ++ r').length ≤ m →
        operand (m + 1) (p ++ r') = some (e, r')) →
      ReadsAs operand 1 (Follows equalityLevel r) p e := by
    intro p hread r' hr m hm
    obtain ⟨m, rfl⟩ : ∃ k, m = k + 1 := ⟨m - 1, by omega⟩
    exact hread r' m hr (by omega)
  -- An operand of one token.
  have single : ∀ {t : Token} {a : Expr} {rest : List Token}, some (a, rest) = some (e, r) →
      (∀ m r', Follows equalityLevel r r' → operand (m + 1) (t :: r') = some (a, r')) →
      ∃ p, p ≠ [] ∧ t :: rest = p ++ r ∧ ReadsAs operand 1 (Follows equalityLevel r) p e := by
    rintro t a rest ⟨⟩ hread
    exact ⟨[t], by simp, rfl, step fun r' m hr _ => hread m r' hr⟩
  unfold operand at h
  split at h
  · cases h
    exact ⟨[_, _], by simp, rfl, step fun r' m _ _ => rfl⟩
  · rename_i rest hint
    simp only [Option.bind_eq_bind, Option.bind_eq_some_iff] at h
    obtain ⟨⟨b, r⟩, hb, ⟨⟩⟩ := h
    obtain ⟨p, hp, rfl, read⟩ := hn.operand hb
    refine ⟨.symbol .minus :: p, by simp, rfl, step fun r' m hr hm => ?_⟩
    have hhead : ∀ k, (p ++ r').head? ≠ some (.integer k) := by
      intro k hk
      cases p with
      | nil => exact hp rfl
      | cons t p =>
        cases hk
        exact hint k _ rfl
    rw [List.cons_append, operand_minus hhead, read r' hr m (by simp at hm ⊢; omega)]
    rfl
  · simp only [Option.bind_eq_bind, Option.bind_eq_some_iff] at h
    obtain ⟨⟨b, r⟩, hb, ⟨⟩⟩ := h
    obtain ⟨p, hp, rfl, read⟩ := hn.operand hb
    refine ⟨.symbol .plus :: p, by simp, rfl, step fun r' m hr hm => ?_⟩
    rw [List.cons_append, operand, read r' hr m (by simp at hm ⊢; omega)]
    rfl
  · simp only [Option.bind_eq_bind, Option.bind_eq_some_iff] at h
    obtain ⟨⟨b, mid⟩, hb, h⟩ := h
    simp only at h
    split at h
    · cases h
      obtain ⟨-, p, hp, rfl, read⟩ := hn.expression hb
      refine ⟨.symbol .leftParen :: (p ++ [.symbol .rightParen]), by simp, by simp,
        step fun r' m _ hm => ?_⟩
      have hread := read (.symbol .rightParen :: r') (.of_closing rfl (by simp)) m
        (by simp at hm ⊢; omega)
      simp only at hread
      simp only [List.cons_append, List.append_assoc, List.nil_append]
      rw [operand, hread]
      rfl
    · cases h
  · simp only [Option.bind_eq_bind, Option.bind_eq_some_iff] at h
    obtain ⟨⟨b, r⟩, hb, ⟨⟩⟩ := h
    obtain ⟨-, p, hp, rfl, read⟩ := hn.expression hb
    refine ⟨.word "not" :: p, by simp, rfl, step fun r' m hr hm => ?_⟩
    have hread := read r' hr m (by simp at hm ⊢; omega)
    simp only at hread
    rw [List.cons_append, operand, hread]
    rfl
  · rename_i table column rest hnot
    simp only [Option.bind_eq_bind, Option.bind_eq_some_iff] at h
    obtain ⟨ref, href, ⟨⟩⟩ := h
    refine ⟨[.word table, .symbol .dot, .word column], by simp, rfl, step fun r' m _ _ => ?_⟩
    simp only [List.cons_append, List.nil_append]
    rw [operand, href]
    · rfl
    · exact hnot
  · rename_i w rest hnot hdot
    simp only [Option.bind_eq_bind, Option.bind_eq_some_iff] at h
    obtain ⟨a, ha, h⟩ := h
    refine single h fun m r' hr => ?_
    rw [operand_word hnot hr.noDot, ha]
    rfl
  all_goals first | exact single h fun m r' _ => rfl | cases h

theorem listItems_local {s r : List Token} {es : List Expr}
    (h : listItems (n + 1) s = some (es, r)) :
    ∃ p, p ≠ [] ∧ s = p ++ r ∧ ReadsAs listItems 3 (fun _ => True) p es := by
  unfold listItems at h
  split at h
  · cases h
    refine ⟨[.symbol .rightParen], by simp, rfl, fun r' _ m hm => ?_⟩
    obtain ⟨m, rfl⟩ : ∃ k, m = k + 1 := ⟨m - 1, by omega⟩
    rfl
  · rename_i hend
    simp only [Option.bind_eq_bind, Option.bind_eq_some_iff] at h
    obtain ⟨⟨a, mid⟩, ha, h⟩ := h
    obtain ⟨-, p, hp, rfl, read⟩ := hn.expression ha
    have hitem : ∀ r' rest, p ++ r' = .symbol .rightParen :: rest → False := by
      intro r' rest hr'
      cases p with
      | nil => exact hp rfl
      | cons t p =>
        rw [List.cons_append, List.cons.injEq] at hr'
        exact hend _ (by rw [hr'.1]; rfl)
    simp only at h
    split at h
    · cases h
      refine ⟨p ++ [.symbol .rightParen], by simp, by simp, fun r' _ m hm => ?_⟩
      simp only [List.length_append] at hm
      obtain ⟨m, rfl⟩ : ∃ k, m = k + 1 := ⟨m - 1, by omega⟩
      have hread := read (.symbol .rightParen :: r') (.of_closing rfl (by simp)) m
        (by simp at hm ⊢; omega)
      simp only at hread
      simp only [List.append_assoc, List.cons_append, List.nil_append]
      rw [listItems, hread]
      · rfl
      · exact hitem _
    · cases h
    · rename_i rest hclose
      simp only [Option.bind_eq_some_iff] at h
      obtain ⟨⟨more, r⟩, hmore, ⟨⟩⟩ := h
      obtain ⟨p₂, hp₂, rfl, read₂⟩ := hn.listItems hmore
      refine ⟨p ++ .symbol .comma :: p₂, by simp, by simp, fun r' _ m hm => ?_⟩
      simp only [List.length_append, List.length_cons] at hm
      obtain ⟨m, rfl⟩ : ∃ k, m = k + 1 := ⟨m - 1, by omega⟩
      have hread := read (.symbol .comma :: (p₂ ++ r')) (.of_closing rfl (by simp)) m
        (by simp only [List.length_append, List.length_cons]; omega)
      have hread₂ := read₂ r' trivial m (by simp only [List.length_append]; omega)
      have hnext : ∀ rest', p₂ ++ r' = .symbol .rightParen :: rest' → False := by
        intro rest' hr'
        cases p₂ with
        | nil => exact hp₂ rfl
        | cons t p₂ =>
          rw [List.cons_append, List.cons.injEq] at hr'
          exact hclose _ (by rw [hr'.1]; rfl)
      simp only at hread
      simp only [List.append_assoc, List.cons_append]
      rw [listItems, hread]
      · simp only [Option.bind_eq_bind, Option.bind_some, hread₂]
        rfl
      · exact hitem _
    · cases h

theorem bounds_local {s r : List Token} {lo hi : Expr}
    (h : bounds (n + 1) s = some (lo, hi, r)) :
    ∃ p, p ≠ [] ∧ s = p ++ r ∧ ∀ r', Follows orderLevel r r' →
      ∀ m, 2 * (p ++ r').length + 3 ≤ m → bounds m (p ++ r') = some (lo, hi, r') := by
  unfold bounds at h
  simp only [Option.bind_eq_bind, Option.bind_eq_some_iff] at h
  obtain ⟨⟨a, mid⟩, ha, h⟩ := h
  simp only at h
  split at h
  · rename_i rest
    simp only [Option.bind_eq_some_iff] at h
    obtain ⟨⟨b, r⟩, hb, ⟨⟩⟩ := h
    obtain ⟨-, p₁, hp₁, rfl, read₁⟩ := hn.expression ha
    obtain ⟨-, p₂, hp₂, rfl, read₂⟩ := hn.expression hb
    refine ⟨p₁ ++ .word "and" :: p₂, by simp, by simp, fun r' hr m hm => ?_⟩
    simp only [List.length_append, List.length_cons] at hm
    obtain ⟨m, rfl⟩ : ∃ k, m = k + 1 := ⟨m - 1, by omega⟩
    have hand : Follows equalityLevel (.word "and" :: (p₂ ++ r)) (.word "and" :: (p₂ ++ r')) :=
      .of_stops (stops_of_opLevel?_eq_some (opLevel?_and _) (Nat.lt_succ_self _)) (by decide)
        (by decide) (by simp)
    have hlo := read₁ _ hand m (by simp only [List.length_append, List.length_cons]; omega)
    have hhi := read₂ _ hr m (by simp only [List.length_append]; omega)
    simp only at hlo hhi
    simp only [List.append_assoc, List.cons_append]
    rw [bounds, hlo]
    simp only [Option.bind_eq_bind, Option.bind_some, hhi]
    rfl
  · cases h

end

/-- **Reading is local.** -/
theorem reads_locally (n : Nat) : ReadsLocally n := by
  induction n with
  | zero =>
    exact ⟨by simp [expression], by simp [operand], by simp [continued], by simp [listItems],
      by simp [bounds]⟩
  | succ n ih =>
    exact ⟨expression_local ih, operand_local ih, continued_local ih, listItems_local ih,
      bounds_local ih⟩

end EventCalendar.Sql
