import EventCalendar.Text.Integer
import Mathlib.Data.List.DropRight

/-!
# Numerals

Which texts are integers, as relations on the text:

* `exists_eq_trimBy`, `trimBy_between`: trimming takes off what may stand around a text, and no
  more.
* `Digits`: digits with single underscores between them; `groupedDigits?_eq_some_iff`.
* `Numeral`: digits after a sign, or without one; `numeral_iff`.
* `integer?_eq_some_iff`: **a text is an integer exactly if it is a numeral between blanks** that
  does not have more digits than are read.
-/

set_option autoImplicit false

namespace EventCalendar.Text

/-! ## Trimming -/

section
variable {p q : Char → Bool}

theorem dropWhile_eq_self {s : List Char} (h : ∀ c, s.head? = some c → p c = false) :
    s.dropWhile p = s := by
  cases s with
  | nil => rfl
  | cons c s => exact List.dropWhile_cons_of_neg (by simp [h c rfl])

theorem trimBy_of_forall {s : List Char} (h : ∀ c ∈ s, p c = false) : trimBy p s = s := by
  rw [trimBy, dropWhile_eq_self fun c hc => h c (List.mem_of_head? hc),
    dropWhile_eq_self fun c hc => h c (List.mem_reverse.1 (List.mem_of_head? hc)),
    List.reverse_reverse]

theorem trimBy_append_left {l s : List Char} (h : ∀ c ∈ l, p c = true) :
    trimBy p (l ++ s) = trimBy p s := by
  unfold trimBy
  rw [List.dropWhile_append_of_pos h]

theorem trimBy_append_right {s r : List Char} (h : ∀ c ∈ r, p c = true) :
    trimBy p (s ++ r) = trimBy p s := by
  have hr : r.dropWhile p = [] := List.dropWhile_eq_nil_iff.2 h
  unfold trimBy
  rw [List.dropWhile_append]
  by_cases hs : (s.dropWhile p).isEmpty = true
  · rw [if_pos hs, hr, List.isEmpty_iff.1 hs]
  · rw [if_neg hs, List.reverse_append,
      List.dropWhile_append_of_pos fun c hc => h c (List.mem_reverse.1 hc)]

theorem trimBy_between {l s r : List Char} (hl : ∀ c ∈ l, p c = true) (hr : ∀ c ∈ r, p c = true) :
    trimBy p (l ++ s ++ r) = trimBy p s := by
  rw [trimBy_append_right hr, trimBy_append_left hl]

theorem exists_eq_trimBy (p : Char → Bool) (s : List Char) :
    ∃ l r, s = l ++ trimBy p s ++ r ∧ (∀ c ∈ l, p c = true) ∧ ∀ c ∈ r, p c = true := by
  refine ⟨s.takeWhile p, ((s.dropWhile p).reverse.takeWhile p).reverse, ?_,
    fun c hc => List.mem_takeWhile_imp hc, fun c hc => ?_⟩
  · rw [trimBy, List.append_assoc, ← List.reverse_append, List.takeWhile_append_dropWhile,
      List.reverse_reverse, List.takeWhile_append_dropWhile]
  · exact List.mem_takeWhile_imp (List.mem_reverse.1 hc)

theorem trimBy_trimBy (h : ∀ c, p c = true → q c = true) (s : List Char) :
    trimBy p (trimBy q s) = trimBy q s := by
  have hends : ∀ c, q c = false → p c = false := by
    intro c hc
    cases hp : p c with
    | false => rfl
    | true => rw [h c hp] at hc; exact hc
  have hdrop : ∀ u : List Char, ∀ c, (u.dropWhile q).head? = some c → q c = false := by
    intro u c hc
    have := List.head?_dropWhile_not q u
    rw [hc] at this
    simpa using this
  have hfirst : ∀ c, (trimBy q s).head? = some c → q c = false := by
    -- What is cut off the end leaves the beginning as it is.
    intro c hc
    have hprefix : trimBy q s <+: s.dropWhile q := List.rdropWhile_prefix q _
    obtain ⟨u, hu⟩ := hprefix
    refine hdrop s c ?_
    rw [← hu, List.head?_append, hc]
    rfl
  have hlast : ∀ c, (trimBy q s).reverse.head? = some c → q c = false := by
    intro c hc
    rw [trimBy, List.reverse_reverse] at hc
    exact hdrop _ c hc
  rw [trimBy, dropWhile_eq_self fun c hc => hends c (hfirst c hc),
    dropWhile_eq_self fun c hc => hends c (hlast c hc), List.reverse_reverse]

theorem trimBy_eq_nil_iff {s : List Char} : trimBy p s = [] ↔ ∀ c ∈ s, p c = true := by
  constructor
  · intro h
    obtain ⟨l, r, hs, hl, hr⟩ := exists_eq_trimBy p s
    rw [h, List.append_nil] at hs
    intro c hc
    rw [hs] at hc
    exact (List.mem_append.1 hc).elim (hl c) (hr c)
  · intro h
    have hs := trimBy_append_left (s := []) h
    rwa [List.append_nil] at hs

end

/-! ## Digits -/

/-- Digits with their values; one underscore may stand between two of them. -/
inductive Digits : List Char → List Nat → Prop
  | one {c : Char} {d : Nat} : digitValue? c = some d → Digits [c] [d]
  | next {c : Char} {d : Nat} {s : List Char} {ds : List Nat} :
      digitValue? c = some d → Digits s ds → Digits (c :: s) (d :: ds)
  | grouped {c : Char} {d : Nat} {s : List Char} {ds : List Nat} :
      digitValue? c = some d → Digits s ds → Digits (c :: '_' :: s) (d :: ds)

theorem ne_of_digitValue? {c c' : Char} {d : Nat} (hc : digitValue? c = some d)
    (hc' : digitValue? c' = none) : c ≠ c' := by
  intro h
  rw [h, hc'] at hc
  cases hc

namespace Digits

variable {s : List Char} {ds : List Nat}

theorem exists_cons (h : Digits s ds) :
    ∃ c d rest ds', s = c :: rest ∧ ds = d :: ds' ∧ digitValue? c = some d := by
  cases h with
  | one hc => exact ⟨_, _, _, _, rfl, rfl, hc⟩
  | next hc _ => exact ⟨_, _, _, _, rfl, rfl, hc⟩
  | grouped hc _ => exact ⟨_, _, _, _, rfl, rfl, hc⟩

theorem head?_ne (h : Digits s ds) {c : Char} (hc : digitValue? c = none) : s.head? ≠ some c := by
  obtain ⟨c', d, rest, ds', rfl, rfl, hc'⟩ := h.exists_cons
  simpa using ne_of_digitValue? hc' hc

theorem ne_nil (h : Digits s ds) : ds ≠ [] := by
  obtain ⟨c, d, rest, ds', rfl, rfl, hc⟩ := h.exists_cons
  exact List.cons_ne_nil d ds'

theorem mem (h : Digits s ds) {c : Char} (hc : c ∈ s) : c = '_' ∨ isDecimalDigit c = true := by
  have hdigit : ∀ {c : Char} {d : Nat}, digitValue? c = some d → isDecimalDigit c = true := by
    intro c d h
    rw [isDecimalDigit, h]
    rfl
  induction h with
  | one h => exact .inr (List.mem_singleton.1 hc ▸ hdigit h)
  | next h _ ih =>
    rcases List.mem_cons.1 hc with rfl | hc
    · exact .inr (hdigit h)
    · exact ih hc
  | grouped h _ ih =>
    rcases List.mem_cons.1 hc with rfl | hc
    · exact .inr (hdigit h)
    · exact (List.mem_cons.1 hc).elim .inl ih

end Digits

theorem groupedDigits?_cons {c : Char} (hc : c ≠ '_') (s : List Char) :
    groupedDigits? digitValue? (c :: s) =
      (digitValue? c).bind fun d => (groupedDigits? digitValue? s).map (d :: ·) := by
  rw [groupedDigits?.eq_3 _ _ _ fun _ _ h => absurd h hc]
  cases digitValue? c <;> cases groupedDigits? digitValue? s <;> rfl

theorem groupedDigits?_line (c : Char) (s : List Char) :
    groupedDigits? digitValue? ('_' :: c :: s) =
      (digitValue? c).bind fun d => (groupedDigits? digitValue? s).map (d :: ·) := by
  rw [groupedDigits?.eq_2]
  cases digitValue? c <;> cases groupedDigits? digitValue? s <;> rfl

/-- The digits of a text, which may also begin with one underscore. -/
theorem groupedDigits?_eq_some_iff {s : List Char} {ds : List Nat} :
    groupedDigits? digitValue? s = some ds ↔
      s = [] ∧ ds = [] ∨ Digits s ds ∨ ∃ rest, s = '_' :: rest ∧ Digits rest ds := by
  -- One more digit, in front of any digits that are left.
  have hstep : ∀ {c : Char} {rest : List Char} {ds : List Nat},
      (∀ {ds}, groupedDigits? digitValue? rest = some ds →
        rest = [] ∧ ds = [] ∨ Digits rest ds ∨ ∃ rest', rest = '_' :: rest' ∧ Digits rest' ds) →
      ((digitValue? c).bind fun d => (groupedDigits? digitValue? rest).map (d :: ·)) = some ds →
        Digits (c :: rest) ds := by
    intro c rest ds ih h
    obtain ⟨d, hd, h⟩ := Option.bind_eq_some_iff.1 h
    obtain ⟨ds', hds', rfl⟩ := Option.map_eq_some_iff.1 h
    rcases ih hds' with ⟨rfl, rfl⟩ | hrest | ⟨rest', rfl, hrest⟩
    · exact .one hd
    · exact .next hd hrest
    · exact .grouped hd hrest
  constructor
  · induction s using groupedDigits?.induct generalizing ds with
    | case1 => exact fun h => .inl ⟨rfl, (Option.some.inj h).symm⟩
    | case2 c rest ih =>
      rw [groupedDigits?_line]
      exact fun h => .inr (.inr ⟨_, rfl, hstep ih h⟩)
    | case3 c rest hline ih =>
      by_cases hc : c = '_'
      · -- An underscore alone is no digit.
        cases rest with
        | nil => subst hc; exact fun h => by cases h
        | cons c' rest => exact absurd rfl (hline c' rest hc)
      · rw [groupedDigits?_cons hc]
        exact fun h => .inr (.inl (hstep ih h))
  · have hdigits : ∀ {s ds}, Digits s ds → groupedDigits? digitValue? s = some ds := by
      intro s ds h
      induction h with
      | one hc => rw [groupedDigits?_cons (ne_of_digitValue? hc (by decide)), hc]; rfl
      | next hc _ ih => rw [groupedDigits?_cons (ne_of_digitValue? hc (by decide)), hc, ih]; rfl
      | grouped hc hs ih =>
        obtain ⟨c', d', rest, ds', rfl, rfl, hc'⟩ := hs.exists_cons
        rw [groupedDigits?_cons (ne_of_digitValue? hc' (by decide))] at ih
        rw [groupedDigits?_cons (ne_of_digitValue? hc (by decide)), hc, groupedDigits?_line, ih]
        rfl
    intro h
    rcases h with ⟨rfl, rfl⟩ | h | ⟨rest, rfl, h⟩
    · rfl
    · exact hdigits h
    · obtain ⟨c, d, rest, ds', rfl, rfl, hc⟩ := h.exists_cons
      rw [groupedDigits?_line, ← groupedDigits?_cons (ne_of_digitValue? hc (by decide))]
      exact hdigits h

/-- **A magnitude** is made of digits, and not of more than are read. -/
theorem readMagnitude_eq_ok_iff_digits {s : List Char} {n : Nat} :
    readMagnitude digitValue? s = .ok n ↔
      ∃ ds, Digits s ds ∧ ds.length ≤ digitLimit ∧ n = ofDigits ds := by
  simp only [readMagnitude]
  constructor
  · intro h
    split at h
    · cases h
    rename_i hhead
    split at h
    · cases h
    rename_i ds hds
    split at h
    · cases h
    rename_i hlength
    split at h
    · cases h
    rename_i hrest
    -- Nothing is left behind the run, so the run is the text.
    simp only [Bool.or_eq_true, Bool.not_eq_true', not_or, Bool.not_eq_true, Bool.not_eq_false]
      at hrest
    obtain ⟨hne, hrest⟩ := hrest
    have hrun := List.takeWhile_append_dropWhile
      (p := fun c => c == '_' || (digitValue? c).isSome) (l := s)
    rw [List.isEmpty_iff.1 hrest, List.append_nil] at hrun
    rw [hrun] at hds hhead
    rcases groupedDigits?_eq_some_iff.1 hds with ⟨-, rfl⟩ | hs | ⟨rest, rfl, -⟩
    · cases hne
    · exact ⟨ds, hs, Nat.not_lt.1 hlength, (Except.ok.inj h).symm⟩
    · exact absurd rfl hhead
  · intro h
    obtain ⟨ds, hs, hlength, rfl⟩ := h
    have hall : ∀ c ∈ s, (c == '_' || (digitValue? c).isSome) = true := by
      intro c hc
      rcases hs.mem hc with rfl | hdigit
      · rfl
      · rw [show (digitValue? c).isSome = true from hdigit, Bool.or_true]
    rw [List.takeWhile_eq_self_iff.2 hall, List.dropWhile_eq_nil_iff.2 hall,
      if_neg (hs.head?_ne (by decide)), groupedDigits?_eq_some_iff.2 (.inr (.inl hs))]
    simp [hs.ne_nil, Nat.not_lt.2 hlength]

/-! ## Numerals -/

/-- Integers in text: the number of digits, counted as they are written, and the integer. -/
inductive Numeral : List Char → Nat → Int → Prop
  | unsigned {s : List Char} {ds : List Nat} : Digits s ds → Numeral s ds.length (ofDigits ds)
  | plus {s : List Char} {ds : List Nat} : Digits s ds → Numeral ('+' :: s) ds.length (ofDigits ds)
  | minus {s : List Char} {ds : List Nat} :
      Digits s ds → Numeral ('-' :: s) ds.length (-(ofDigits ds : Int))

theorem splitSign_of_digits {s : List Char} {ds : List Nat} (h : Digits s ds) :
    splitSign s = (false, s) := by
  refine splitSign.eq_3 s (fun rest hs => ?_) fun rest hs => ?_
  · exact h.head?_ne (c := '-') (by decide) (by rw [hs]; rfl)
  · exact h.head?_ne (c := '+') (by decide) (by rw [hs]; rfl)

theorem numeral_iff {s : List Char} {k : Nat} {n : Int} :
    Numeral s k n ↔ ∃ ds, Digits (splitSign s).2 ds ∧ k = ds.length ∧
      n = signed (splitSign s).1 (ofDigits ds) := by
  constructor
  · intro h
    cases h with
    | unsigned h =>
      have hsign := splitSign_of_digits h
      exact ⟨_, by rwa [hsign], rfl, by rw [hsign]; rfl⟩
    | plus h => exact ⟨_, h, rfl, rfl⟩
    | minus h => exact ⟨_, h, rfl, rfl⟩
  · intro h
    obtain ⟨ds, hs, rfl, rfl⟩ := h
    unfold splitSign at hs ⊢
    split at hs
    · exact .minus hs
    · exact .plus hs
    · exact .unsigned hs

theorem Numeral.mem {s : List Char} {k : Nat} {n : Int} (h : Numeral s k n) {c : Char}
    (hc : c ∈ s) : c = '+' ∨ c = '-' ∨ c = '_' ∨ isDecimalDigit c = true := by
  cases h with
  | unsigned h => exact .inr (.inr (h.mem hc))
  | plus h => exact (List.mem_cons.1 hc).imp_right fun hc => .inr (h.mem hc)
  | minus h => exact .inr ((List.mem_cons.1 hc).imp_right h.mem)

theorem Numeral.ne_nil {s : List Char} {k : Nat} {n : Int} (h : Numeral s k n) : s ≠ [] := by
  rintro rfl
  obtain ⟨ds, hs, -⟩ := numeral_iff.1 h
  cases hs

theorem readInteger_eq_ok_iff {s : List Char} {n : Int} :
    readInteger s = .ok n ↔ ∃ m,
      readMagnitude digitValue? (splitSign (trimBy isNumberBlank s)).2 = .ok m ∧
        n = signed (splitSign (trimBy isNumberBlank s)).1 m := by
  simp only [readInteger]
  cases readMagnitude digitValue? (splitSign (trimBy isNumberBlank s)).2 <;>
    simp [Except.map, eq_comm]

/-- **A text is an integer** exactly if it is a numeral between blanks that does not have more
digits than are read. -/
theorem integer?_eq_some_iff {s : List Char} {n : Int} :
    integer? s = some n ↔ ∃ k ≤ digitLimit, Numeral (trimBy isNumberBlank s) k n := by
  have hok : integer? s = some n ↔ readInteger s = .ok n := by
    rw [integer?]
    cases readInteger s <;> simp [Except.toOption]
  rw [hok, readInteger_eq_ok_iff]
  constructor
  · intro h
    obtain ⟨m, hm, rfl⟩ := h
    obtain ⟨ds, hds, hlength, rfl⟩ := readMagnitude_eq_ok_iff_digits.1 hm
    exact ⟨_, hlength, numeral_iff.2 ⟨ds, hds, rfl, rfl⟩⟩
  · intro h
    obtain ⟨k, hk, h⟩ := h
    obtain ⟨ds, hds, rfl, rfl⟩ := numeral_iff.1 h
    exact ⟨_, readMagnitude_eq_ok_iff_digits.2 ⟨ds, hds, hk, rfl⟩, rfl⟩

end EventCalendar.Text
