import EventCalendar.Sql.Token

/-!
# Tokens of texts side by side

A text that is cut into tokens on its own is cut into the same tokens in front of a blank and any
other text (`ofPieces_append_blank`): no token reaches over a blank that stands outside quotes, and
a text whose quotes are not closed has no tokens. The facts below say this of one token
(`next?_append_blank`), and that the number of tokens asked for does not matter (`tokensUpTo_eq_of_le`).
-/

set_option autoImplicit false

namespace EventCalendar.Sql.Token

def blank : Piece := .char ' '

/-! ## Spans -/

section
variable {p : Char → Bool}

theorem spanChars_length (s : List Piece) :
    (spanChars p s).1.length + (spanChars p s).2.length = s.length := by
  induction s with
  | nil => rfl
  | cons x s ih =>
    cases x with
    | char c =>
      unfold spanChars
      split
      · simp only [List.length_cons]
        omega
      · simp
    | slot v => simp [spanChars]
    | emptyQuery => simp [spanChars]

theorem spanChars_cons_of_pos {c : Char} {s : List Piece} (hc : p c = true) :
    spanChars p (.char c :: s) = (c :: (spanChars p s).1, (spanChars p s).2) := by
  simp [spanChars, hc]

theorem spanChars_append_blank (hp : p ' ' = false) (s u : List Piece) :
    spanChars p (s ++ blank :: u) = ((spanChars p s).1, (spanChars p s).2 ++ blank :: u) := by
  induction s with
  | nil => simp [spanChars, blank, hp]
  | cons x s ih =>
    cases x with
    | char c =>
      rw [List.cons_append]
      unfold spanChars
      by_cases hc : p c = true
      · simp [hc, ih]
      · simp [hc]
    | slot v => simp [spanChars]
    | emptyQuery => simp [spanChars]

end

/-- The characters at the beginning of a text end at the latest where those of a longer text do. -/
theorem exists_spanChars_append (s u : List Piece) :
    (spanChars (fun _ => true) (s ++ blank :: u)).1 = (spanChars (fun _ => true) s).1 ∨
      ∃ more, (spanChars (fun _ => true) (s ++ blank :: u)).1
        = (spanChars (fun _ => true) s).1 ++ ' ' :: more := by
  induction s with
  | nil => exact .inr ⟨_, rfl⟩
  | cons x s ih =>
    cases x with
    | char c =>
      rw [List.cons_append, spanChars_cons_of_pos rfl, spanChars_cons_of_pos rfl]
      rcases ih with ih | ⟨more, ih⟩
      · exact .inl (by rw [ih])
      · exact .inr ⟨more, by rw [ih]; rfl⟩
    | slot v => exact .inl rfl
    | emptyQuery => exact .inl rfl

/-! ## Numbers -/

theorem takeWhile_append_blank {p : Char → Bool} (hp : p ' ' = false) (s u : List Char) :
    (s ++ ' ' :: u).takeWhile p = s.takeWhile p := by
  induction s with
  | nil => simp [hp]
  | cons c s ih =>
    by_cases hc : p c = true
    · simp [hc, ih]
    · simp [hc]

theorem exponentStart_append_blank (s u : List Char) :
    Cell.exponentStart (s ++ ' ' :: u) = Cell.exponentStart s := by
  have hd : Char.isDigit ' ' = false := by decide
  match s with
  | [] => simp [Cell.exponentStart]
  | [mark] => simp [Cell.exponentStart, hd]
  | mark :: c :: s =>
    simp only [Cell.exponentStart, List.cons_append]
    split
    · by_cases hm : c = '-'
      · subst hm
        simp [takeWhile_append_blank hd]
      · by_cases hp : c = '+'
        · subst hp
          simp [takeWhile_append_blank hd]
        · have h := takeWhile_append_blank hd (c :: s) u
          rw [List.cons_append] at h
          simp [hm, hp, h]
    · rfl

theorem length_exponentStart_le (s : List Char) : (Cell.exponentStart s).length ≤ s.length := by
  cases s with
  | nil => simp [Cell.exponentStart]
  | cons mark s =>
    have key : ∀ sign rest : List Char, sign.length + rest.length ≤ s.length →
        (if (rest.takeWhile Char.isDigit).isEmpty = true then []
          else mark :: (sign ++ rest.takeWhile Char.isDigit)).length ≤ (mark :: s).length := by
      intro sign rest hlen
      have hr : (rest.takeWhile Char.isDigit).length ≤ rest.length :=
        (List.takeWhile_sublist _).length_le
      split
      · simp
      · simp only [List.length_cons, List.length_append]
        omega
    simp only [Cell.exponentStart]
    split
    · refine key _ _ ?_
      split <;> simp [Nat.add_comm]
    · simp

/-- A number from its exponent on. -/
def numberEnd (digits fraction : List Char) (rest : List Piece) : Option (Token × List Piece) :=
  let power := Cell.exponentStart (spanChars (fun _ => true) rest).1
  let rest := rest.drop power.length
  if (rest.head?.bind char?).any continuesName then none
  else if fraction.isEmpty && power.isEmpty then
    some (.integer (Text.ofDigits (digits.filterMap Text.asciiDigit?)), rest)
  else
    (Binary64.readUnsigned? Text.asciiDigit? false (digits ++ fraction ++ power)).map
      fun x => (.real x, rest)

theorem number?_eq (s : List Piece) :
    number? s = match (spanChars Char.isDigit s).2 with
      | .char '.' :: more =>
        numberEnd (spanChars Char.isDigit s).1 ('.' :: (spanChars Char.isDigit more).1)
          (spanChars Char.isDigit more).2
      | rest => numberEnd (spanChars Char.isDigit s).1 [] rest := by
  unfold number? numberEnd
  generalize spanChars Char.isDigit s = span
  obtain ⟨digits, rest⟩ := span
  cases rest with
  | nil => rfl
  | cons x rest =>
    cases x with
    | char c =>
      by_cases hc : c = '.'
      · subst hc
        rfl
      · simp [hc]
    | slot v => rfl
    | emptyQuery => rfl

theorem head?_append_blank {p : Char → Bool} (hp : p ' ' = false) (s u : List Piece) :
    ((s ++ blank :: u).head?.bind char?).any p = (s.head?.bind char?).any p := by
  cases s with
  | nil => simp [blank, char?, hp]
  | cons x s => rfl

theorem length_spanChars_le {p : Char → Bool} (s : List Piece) :
    (spanChars p s).1.length ≤ s.length ∧ (spanChars p s).2.length ≤ s.length := by
  have := spanChars_length (p := p) s
  omega

theorem numberEnd_append_blank {digits fraction : List Char} {s r : List Piece} {t : Token}
    (h : numberEnd digits fraction s = some (t, r)) (u : List Piece) :
    numberEnd digits fraction (s ++ blank :: u) = some (t, r ++ blank :: u) := by
  have hpower : Cell.exponentStart (spanChars (fun _ => true) (s ++ blank :: u)).1
      = Cell.exponentStart (spanChars (fun _ => true) s).1 := by
    rcases exists_spanChars_append s u with h | ⟨more, h⟩
    · rw [h]
    · rw [h, exponentStart_append_blank]
  unfold numberEnd at h ⊢
  simp only [hpower]
  generalize hp : Cell.exponentStart (spanChars (fun _ => true) s).1 = power at h ⊢
  have hlen : power.length ≤ s.length := by
    rw [← hp]
    exact Nat.le_trans (length_exponentStart_le _) (length_spanChars_le s).1
  rw [List.drop_append_of_le_length hlen, head?_append_blank (by decide)]
  simp only at h
  split at h
  · cases h
  · rename_i hname
    rw [if_neg hname]
    split at h
    · rename_i hempty
      rw [if_pos hempty]
      cases h
      rfl
    · rename_i hempty
      rw [if_neg hempty]
      obtain ⟨x, hx, hxt⟩ := Option.map_eq_some_iff.1 h
      cases hxt
      rw [hx]
      rfl

theorem numberEnd_length {digits fraction : List Char} {s r : List Piece} {t : Token}
    (h : numberEnd digits fraction s = some (t, r)) : r.length ≤ s.length := by
  unfold numberEnd at h
  simp only at h
  split at h
  · cases h
  · split at h
    · cases h
      simp
    · obtain ⟨x, -, hxt⟩ := Option.map_eq_some_iff.1 h
      cases hxt
      simp

theorem number?_append_blank {s r : List Piece} {t : Token} (h : number? s = some (t, r))
    (u : List Piece) : number? (s ++ blank :: u) = some (t, r ++ blank :: u) := by
  have hd : Char.isDigit ' ' = false := by decide
  rw [number?_eq] at h ⊢
  simp only [spanChars_append_blank hd]
  generalize spanChars Char.isDigit s = span at h ⊢
  obtain ⟨digits, rest⟩ := span
  simp only at h ⊢
  split at h
  · rename_i more
    simp only [List.cons_append, spanChars_append_blank hd]
    exact numberEnd_append_blank h u
  · rename_i hdot
    split
    · rename_i more hmore
      cases rest with
      | nil => simp [blank] at hmore
      | cons x rest =>
        rw [List.cons_append, List.cons.injEq] at hmore
        exact absurd (by rw [hmore.1]) (hdot rest)
    · exact numberEnd_append_blank h u

/-! ## Quoted texts -/

theorem quotedText_cons_of_ne {quote c : Char} (hc : c ≠ quote) (s : List Piece) :
    quotedText quote (.char c :: s)
      = (quotedText quote s).map fun (cs, n, r) => (c :: cs, n, r) := by
  cases s with
  | nil => simp [quotedText, hc]
  | cons x s => cases x <;> simp [quotedText, hc]

theorem quotedText_close {quote : Char} {s : List Piece} (hs : s.head? ≠ some (.char quote)) :
    quotedText quote (.char quote :: s) = some ([], 0, s) := by
  cases s with
  | nil => simp [quotedText]
  | cons x s =>
    cases x with
    | char d =>
      have hd : d ≠ quote := fun h => hs (by rw [h]; rfl)
      simp [quotedText, hd]
    | slot v => simp [quotedText]
    | emptyQuery => simp [quotedText]

theorem quotedText_append_blank {quote : Char} (hq : quote ≠ ' ') {s r : List Piece}
    {cs : List Char} {n : Nat} (h : quotedText quote s = some (cs, n, r)) (u : List Piece) :
    quotedText quote (s ++ blank :: u) = some (cs, n, r ++ blank :: u) := by
  have hblank : ∀ s : List Piece, s.head? ≠ some (.char quote) →
      (s ++ blank :: u).head? ≠ some (.char quote) := by
    intro s hs
    cases s with
    | nil => simpa [blank] using Ne.symm hq
    | cons x s => exact hs
  fun_induction quotedText quote s generalizing cs n r with
  | case1 => cases h
  | case2 rest ih =>
    obtain ⟨⟨cs, n, r⟩, ht, he⟩ := Option.map_eq_some_iff.1 h
    cases he
    simp [quotedText, ih ht]
  | case3 d rest hd =>
    cases h
    exact quotedText_close (hblank (.char d :: rest) (by simpa using hd))
  | case4 c d rest hc ih =>
    obtain ⟨⟨cs, n, r⟩, ht, he⟩ := Option.map_eq_some_iff.1 h
    cases he
    rw [List.cons_append, quotedText_cons_of_ne hc, ih ht]
    rfl
  | case5 rest hrest =>
    cases h
    refine quotedText_close (hblank rest fun hq => ?_)
    cases rest with
    | nil => cases hq
    | cons x rest =>
      cases hq
      exact hrest quote rest rfl
  | case6 c rest hrest hc ih =>
    obtain ⟨⟨cs, n, r⟩, ht, he⟩ := Option.map_eq_some_iff.1 h
    cases he
    rw [List.cons_append, quotedText_cons_of_ne hc, ih ht]
    rfl
  | case7 v rest ih =>
    obtain ⟨⟨cs, n, r⟩, ht, he⟩ := Option.map_eq_some_iff.1 h
    cases he
    simp [quotedText, ih ht]
  | case8 rest ih =>
    obtain ⟨⟨cs, n, r⟩, ht, he⟩ := Option.map_eq_some_iff.1 h
    cases he
    simp [quotedText, ih ht]

theorem quotedText_length {quote : Char} {s r : List Piece} {cs : List Char} {n : Nat}
    (h : quotedText quote s = some (cs, n, r)) : r.length < s.length := by
  fun_induction quotedText quote s generalizing cs n r with
  | case1 => cases h
  | case3 | case5 =>
    cases h
    simp
  | case2 _ ih | case4 _ _ _ _ ih | case6 _ _ _ _ ih | case7 _ _ ih | case8 _ ih =>
    obtain ⟨⟨cs, n, r⟩, ht, he⟩ := Option.map_eq_some_iff.1 h
    cases he
    have := ih ht
    simp only [List.length_cons] at this ⊢
    omega

/-! ## One token -/

/-- A symbol has one character or two, and two only where there is a second one. -/
def SymbolSized (next : Option Char) (found : Option (Symbol × Nat)) : Prop :=
  ∀ s n, found = some (s, n) → n ≤ 2 ∧ (next = none → n = 1)

section
variable {next : Option Char} {a b : Option (Symbol × Nat)}

theorem SymbolSized.ite {p : Prop} [Decidable p] (ha : p → SymbolSized next a)
    (hb : SymbolSized next b) : SymbolSized next (if p then a else b) := by
  split
  · exact ha ‹p›
  · exact hb

theorem symbolSized_one (s : Symbol) : SymbolSized next (some (s, 1)) := by
  rintro - - ⟨⟩
  exact ⟨by omega, fun _ => rfl⟩

theorem symbolSized_two (s : Symbol) {d : Char} (h : next = some d) :
    SymbolSized next (some (s, 2)) := by
  rintro - - ⟨⟩
  exact ⟨by omega, fun hn => by rw [h] at hn; cases hn⟩

theorem symbolSized_none : SymbolSized next none := by
  rintro - - ⟨⟩

theorem symbolSized_symbol? (c : Char) (next : Option Char) :
    SymbolSized next (symbol? c next) := by
  have heq : SymbolSized next
      (some (.comparison .eq, if next = some '=' then 2 else 1)) := by
    by_cases h : next = some '='
    · rw [if_pos h]
      exact symbolSized_two _ h
    · rw [if_neg h]
      exact symbolSized_one _
  unfold symbol?
  repeat' refine SymbolSized.ite (fun _ => ?_) ?_
  all_goals first
    | exact symbolSized_one _
    | exact symbolSized_two _ ‹_›
    | exact symbolSized_none
    | exact heq

end

theorem symbol?_blank {c : Char} : symbol? c (some ' ') = symbol? c none := by
  simp [symbol?]

theorem symbol?_append_blank {c : Char} {s : List Piece} {sym : Symbol} {n : Nat}
    (h : symbol? c (s.head?.bind char?) = some (sym, n)) (u : List Piece) :
    symbol? c ((s ++ blank :: u).head?.bind char?) = some (sym, n) ∧ n - 1 ≤ s.length := by
  have hn := symbolSized_symbol? c _ _ _ h
  cases s with
  | nil =>
    have : n = 1 := hn.2 rfl
    exact ⟨symbol?_blank.trans h, by omega⟩
  | cons x s =>
    refine ⟨h, ?_⟩
    simp only [List.length_cons]
    omega

theorem number?_length {c : Char} (hc : c.isDigit = true ∨ c = '.') {s r : List Piece} {t : Token}
    (h : number? (.char c :: s) = some (t, r)) : r.length ≤ s.length := by
  rw [number?_eq] at h
  rcases hc with hc | hc
  · have hspan := (length_spanChars_le (p := Char.isDigit) s).2
    rw [spanChars_cons_of_pos hc] at h
    split at h
    · rename_i more hmore
      have hmore' := congrArg List.length hmore
      have := numberEnd_length h
      have := (length_spanChars_le (p := Char.isDigit) more).2
      simp only [List.length_cons] at hmore'
      omega
    · exact Nat.le_trans (numberEnd_length h) hspan
  · subst hc
    rw [show spanChars Char.isDigit (.char '.' :: s) = ([], .char '.' :: s) from rfl] at h
    exact Nat.le_trans (numberEnd_length h) (length_spanChars_le s).2

/-- A token takes one piece at least, and ends at a blank. -/
theorem next?_local {s r : List Piece} {t : Token} (h : next? s = some (t, r)) (u : List Piece) :
    r.length < s.length ∧ next? (s ++ blank :: u) = some (t, r ++ blank :: u) := by
  have hd : Char.isDigit ' ' = false := by decide
  have hn : continuesName ' ' = false := by decide
  match s with
  | [] => cases h
  | .slot v :: s =>
    cases h
    exact ⟨by simp, rfl⟩
  | .emptyQuery :: s =>
    cases h
    exact ⟨by simp, rfl⟩
  | .char c :: s =>
    suffices r.length ≤ s.length ∧ next? (.char c :: (s ++ blank :: u)) = some (t, r ++ blank :: u)
      from ⟨Nat.lt_succ_of_le this.1, this.2⟩
    have hquote : ∀ {cs n r'}, c ≠ ' ' → quotedText c s = some (cs, n, r') →
        r'.length ≤ s.length ∧ quotedText c (s ++ blank :: u) = some (cs, n, r' ++ blank :: u) :=
      fun hc hq => ⟨Nat.le_of_lt (quotedText_length hq), quotedText_append_blank hc hq u⟩
    rw [next?] at h ⊢
    by_cases hname : startsName c = true
    · have hspan := spanChars_append_blank hn (.char c :: s) u
      rw [List.cons_append] at hspan
      rw [if_pos hname] at h ⊢
      rw [hspan, spanChars_cons_of_pos (by simp [continuesName, hname])]
      rw [spanChars_cons_of_pos (by simp [continuesName, hname])] at h
      cases h
      exact ⟨(length_spanChars_le s).2, rfl⟩
    rw [if_neg hname] at h ⊢
    by_cases hdigit : c.isDigit = true
    · rw [if_pos hdigit] at h ⊢
      exact ⟨number?_length (.inl hdigit) h, number?_append_blank h u⟩
    rw [if_neg hdigit] at h ⊢
    by_cases hliteral : c = Text.apostrophe
    · rw [if_pos hliteral] at h ⊢
      obtain ⟨⟨cs, n, r⟩, hq, ht⟩ := Option.map_eq_some_iff.1 h
      cases ht
      obtain ⟨hlen, happ⟩ := hquote (by rw [hliteral]; decide) hq
      exact ⟨hlen, by rw [happ]; rfl⟩
    rw [if_neg hliteral] at h ⊢
    by_cases hquoted : c = Text.doubleQuote
    · rw [if_pos hquoted] at h ⊢
      obtain ⟨⟨cs, n, r⟩, hq, ht⟩ := Option.map_eq_some_iff.1 h
      cases ht
      obtain ⟨hlen, happ⟩ := hquote (by rw [hquoted]; decide) hq
      exact ⟨hlen, by rw [happ]; rfl⟩
    rw [if_neg hquoted] at h ⊢
    by_cases hmark : c = '?'
    · rw [if_pos hmark] at h ⊢
      cases h
      exact ⟨Nat.le_refl _, rfl⟩
    rw [if_neg hmark] at h ⊢
    by_cases hcolon : c = ':'
    · rw [if_pos hcolon] at h ⊢
      rw [spanChars_append_blank hn]
      have hlen := (length_spanChars_le (p := continuesName) s).2
      generalize spanChars continuesName s = span at h hlen ⊢
      obtain ⟨cs, rest⟩ := span
      by_cases hempty : cs.isEmpty = true
      · simp only [if_pos hempty] at h
        cases h
      · simp only [if_neg hempty] at h ⊢
        cases h
        exact ⟨hlen, rfl⟩
    rw [if_neg hcolon] at h ⊢
    rw [head?_append_blank hd]
    by_cases hpoint : c = '.' ∧ ((s.head?.bind char?).any Char.isDigit) = true
    · rw [if_pos hpoint] at h ⊢
      exact ⟨number?_length (.inr hpoint.1) h, number?_append_blank h u⟩
    rw [if_neg hpoint] at h ⊢
    obtain ⟨⟨sym, n⟩, hsym, ht⟩ := Option.map_eq_some_iff.1 h
    cases ht
    obtain ⟨hsym', hle⟩ := symbol?_append_blank hsym u
    refine ⟨by simp, ?_⟩
    rw [hsym', ← List.drop_append_of_le_length hle]
    rfl

theorem next?_length {s r : List Piece} {t : Token} (h : next? s = some (t, r)) :
    r.length < s.length := (next?_local h []).1

theorem next?_append_blank {s r : List Piece} {t : Token} (h : next? s = some (t, r))
    (u : List Piece) : next? (s ++ blank :: u) = some (t, r ++ blank :: u) := (next?_local h u).2

/-! ## All tokens of a text -/

theorem tokensUpTo_of_blank {n : Nat} {s : List Piece} (hs : s.dropWhile isGap = []) :
    tokensUpTo n s = some [] := by
  unfold tokensUpTo
  rw [hs]

theorem tokensUpTo_succ {n : Nat} {s : List Piece} (hs : s.dropWhile isGap ≠ []) :
    tokensUpTo (n + 1) s
      = (next? (s.dropWhile isGap)).bind fun found =>
          (tokensUpTo n found.2).map (found.1 :: ·) := by
  rw [tokensUpTo]
  split
  · contradiction
  · cases next? (s.dropWhile isGap) with
    | none => rfl
    | some found =>
      obtain ⟨t, r⟩ := found
      cases h : tokensUpTo n r <;> simp [h]

theorem tokensUpTo_eq_of_le {n m : Nat} {s : List Piece} (hn : s.length ≤ n) (hm : s.length ≤ m) :
    tokensUpTo n s = tokensUpTo m s := by
  induction n generalizing m s with
  | zero =>
    have hs : s = [] := by simpa using hn
    subst hs
    rw [tokensUpTo_of_blank rfl, tokensUpTo_of_blank rfl]
  | succ n ih =>
    by_cases hs : s.dropWhile isGap = []
    · rw [tokensUpTo_of_blank hs, tokensUpTo_of_blank hs]
    have hgap : (s.dropWhile isGap).length ≤ s.length := (List.dropWhile_sublist _).length_le
    cases m with
    | zero =>
      have : 0 < (s.dropWhile isGap).length := List.length_pos_iff.2 hs
      omega
    | succ m =>
      rw [tokensUpTo_succ hs, tokensUpTo_succ hs]
      cases hfound : next? (s.dropWhile isGap) with
      | none => rfl
      | some found =>
        have hlen := next?_length hfound
        simp only [Option.bind_some]
        rw [ih (m := m) (by omega) (by omega)]

theorem ofPieces_of_blank {s : List Piece} (hs : s.dropWhile isGap = []) :
    ofPieces s = some [] := tokensUpTo_of_blank hs

theorem ofPieces_eq {s : List Piece} (hs : s.dropWhile isGap ≠ []) :
    ofPieces s = (next? (s.dropWhile isGap)).bind fun found =>
      (ofPieces found.2).map (found.1 :: ·) := by
  have hgap : (s.dropWhile isGap).length ≤ s.length := (List.dropWhile_sublist _).length_le
  rw [ofPieces, tokensUpTo_eq_of_le (Nat.le_refl _) (Nat.le_succ _), tokensUpTo_succ hs]
  cases hfound : next? (s.dropWhile isGap) with
  | none => rfl
  | some found =>
    have hlen := next?_length hfound
    simp only [Option.bind_some]
    rw [tokensUpTo_eq_of_le (m := found.2.length) (by omega) (Nat.le_refl _)]
    rfl

theorem ofPieces_congr {s s' : List Piece} (h : s.dropWhile isGap = s'.dropWhile isGap) :
    ofPieces s = ofPieces s' := by
  by_cases hs : s.dropWhile isGap = []
  · rw [ofPieces_of_blank hs, ofPieces_of_blank (h ▸ hs)]
  · rw [ofPieces_eq hs, ofPieces_eq (h ▸ hs), h]

/-- **Texts side by side**: a text in front of a blank has the same tokens as on its own. -/
theorem ofPieces_append_blank {s : List Piece} {tokens : List Token}
    (h : ofPieces s = some tokens) (u : List Piece) :
    ofPieces (s ++ blank :: u) = (ofPieces u).map (tokens ++ ·) := by
  induction tokens generalizing s with
  | nil =>
    have hs : s.dropWhile isGap = [] := by
      refine Decidable.byContradiction fun hs => ?_
      rw [ofPieces_eq hs, Option.bind_eq_some_iff] at h
      obtain ⟨found, -, h⟩ := h
      obtain ⟨rest, -, hrest⟩ := Option.map_eq_some_iff.1 h
      cases hrest
    have hu : (s ++ blank :: u).dropWhile isGap = u.dropWhile isGap := by
      rw [List.dropWhile_append, hs]
      rfl
    rw [ofPieces_congr hu]
    simp
  | cons t tokens ih =>
    have hs : s.dropWhile isGap ≠ [] := fun hs => by
      rw [ofPieces_of_blank hs] at h
      cases h
    have hu : (s ++ blank :: u).dropWhile isGap = s.dropWhile isGap ++ blank :: u := by
      rw [List.dropWhile_append, if_neg (by simpa using hs)]
    rw [ofPieces_eq hs, Option.bind_eq_some_iff] at h
    obtain ⟨found, hfound, h⟩ := h
    obtain ⟨rest, hrest, ht⟩ := Option.map_eq_some_iff.1 h
    cases ht
    rw [ofPieces_eq (by simp [hu]), hu, next?_append_blank hfound, Option.bind_some, ih hrest]
    simp [Function.comp_def]

end EventCalendar.Sql.Token
