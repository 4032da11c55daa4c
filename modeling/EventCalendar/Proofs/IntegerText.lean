import EventCalendar.Proofs.Numerals

/-!
# Texts of integers

What a row of digits after minus signs is read as:

* `isDigitMark_iff`: the digits of all scripts by their ranges, none of which holds a blank.
* `readMagnitude_eq_ok_iff`: a row of digits is a number just if all of them have a place value and
  there are not more than are read.
* `readInteger_minus_iff`: with one minus sign at most it is an integer, and **with more it is
  none**.
* `readInteger_decimal`: **the decimal notation of an integer** is read as that integer.
-/

set_option autoImplicit false

namespace EventCalendar.Text

/-! ## Digits -/

def digitRanges : List (Nat × Nat) := zeroDigits.map (fun z => (z, z + 9)) ++ digitMarkRanges

theorem inRanges_iff {ranges : List (Nat × Nat)} {c : Char} :
    inRanges ranges c = true ↔ ∃ r ∈ ranges, r.1 ≤ c.toNat ∧ c.toNat ≤ r.2 := by
  simp [inRanges]

theorem isDecimalDigit_iff {c : Char} :
    isDecimalDigit c = true ↔ ∃ z ∈ zeroDigits, z ≤ c.toNat ∧ c.toNat < z + 10 := by
  simp [isDecimalDigit, digitValue?]

theorem isDigitMark_iff {c : Char} : isDigitMark c = true ↔ inRanges digitRanges c = true := by
  rw [isDigitMark, Bool.or_eq_true, isDecimalDigit_iff, inRanges_iff, inRanges_iff, digitRanges]
  simp only [List.mem_append, List.mem_map, or_and_right, exists_or, ← exists_and_right, and_assoc]
  refine or_congr ⟨?_, ?_⟩ Iff.rfl
  · intro h
    obtain ⟨z, hz, hle, hlt⟩ := h
    exact ⟨_, z, hz, rfl, hle, Nat.le_of_lt_succ hlt⟩
  · intro h
    obtain ⟨-, z, hz, rfl, hle, hlt⟩ := h
    exact ⟨z, hz, hle, Nat.lt_succ_of_le hlt⟩

theorem isDigitMark_of_isDecimalDigit {c : Char} (h : isDecimalDigit c = true) :
    isDigitMark c = true := by
  rw [isDigitMark, h]
  rfl

theorem isBlank_of_isDigitMark {c : Char} (h : isDigitMark c = true) : isBlank c = false := by
  have hdisjoint : ∀ r ∈ digitRanges, ∀ b ∈ blankRanges, r.2 < b.1 ∨ b.2 < r.1 := by decide
  obtain ⟨r, hr, hlo, hhi⟩ := inRanges_iff.1 (isDigitMark_iff.1 h)
  rw [isBlank, ← Bool.not_eq_true, inRanges_iff]
  rintro ⟨b, hb, hlo', hhi'⟩
  have := hdisjoint r hr b hb
  omega

theorem ne_of_isDigitMark {c d : Char} (hc : isDigitMark c = true) (hd : isDigitMark d = false) :
    c ≠ d := by
  intro h
  rw [h, hd] at hc
  cases hc

/-! ## Blanks around digits -/

theorem isNumberBlank_eq_false {c : Char} (h : isBlank c = false) : isNumberBlank c = false := by
  rw [isNumberBlank, h]
  rfl

section
variable {k : Nat} {ds : List Char} (hmarks : ∀ c ∈ ds, isDigitMark c = true)
include hmarks

theorem isBlank_minus {c : Char} (hc : c ∈ List.replicate k '-' ++ ds) : isBlank c = false := by
  rcases List.mem_append.1 hc with hc | hc
  · rw [List.eq_of_mem_replicate hc]
    decide
  · exact isBlank_of_isDigitMark (hmarks c hc)

theorem trim_minus : trim (List.replicate k '-' ++ ds) = List.replicate k '-' ++ ds :=
  trimBy_of_forall fun _ hc => isBlank_minus hmarks hc

end

/-! ## Magnitudes -/

theorem Digits.filterMap_eq {s : List Char} {ds : List Nat} (h : Digits s ds) :
    s.filterMap digitValue? = ds := by
  have hline : digitValue? '_' = none := by decide
  induction h with
  | one hc => simp [hc]
  | next hc _ ih => rw [List.filterMap_cons_some hc, ih]
  | grouped hc _ ih => rw [List.filterMap_cons_some hc, List.filterMap_cons_none hline, ih]

theorem digits_row {s : List Char} (hne : s ≠ []) (h : ∀ c ∈ s, isDecimalDigit c = true) :
    Digits s (s.filterMap digitValue?) := by
  induction s with
  | nil => exact absurd rfl hne
  | cons c s ih =>
    rw [List.forall_mem_cons] at h
    obtain ⟨d, hd⟩ := Option.isSome_iff_exists.1 h.1
    rw [List.filterMap_cons_some hd]
    by_cases hs : s = []
    · subst hs
      exact .one hd
    · exact .next hd (ih hs h.2)

theorem readMagnitude_minus (s : List Char) :
    readMagnitude digitValue? ('-' :: s) = .error .malformed := rfl

theorem length_filterMap_digitValue? {ds : List Char} (h : ∀ c ∈ ds, isDecimalDigit c = true) :
    (ds.filterMap digitValue?).length = ds.length := by
  rw [List.length_filterMap_eq_countP, List.countP_eq_length]
  exact h

section
variable {ds : List Char} (hne : ds ≠ []) (hmarks : ∀ c ∈ ds, isDigitMark c = true)
include hne hmarks

/-- **A row of digits** is a number just if all of them have a place value and there are not more
than are read. -/
theorem readMagnitude_eq_ok_iff {n : Nat} :
    readMagnitude digitValue? ds = .ok n ↔
      (∀ c ∈ ds, isDecimalDigit c = true) ∧ ds.length ≤ digitLimit ∧
        n = ofDigits (ds.filterMap digitValue?) := by
  rw [readMagnitude_eq_ok_iff_digits]
  constructor
  · intro h
    obtain ⟨values, hvalues, hlength, rfl⟩ := h
    have hall : ∀ c ∈ ds, isDecimalDigit c = true := fun c hc =>
      (hvalues.mem hc).resolve_left (ne_of_isDigitMark (hmarks c hc) (by decide))
    rw [← hvalues.filterMap_eq, length_filterMap_digitValue? hall] at hlength
    exact ⟨hall, hlength, by rw [hvalues.filterMap_eq]⟩
  · intro h
    obtain ⟨hall, hlength, rfl⟩ := h
    exact ⟨_, digits_row hne hall, by rwa [length_filterMap_digitValue? hall], rfl⟩

theorem splitSign_marks : splitSign ds = (false, ds) := by
  obtain ⟨c, ds, rfl⟩ := List.exists_cons_of_ne_nil hne
  have hc := hmarks c List.mem_cons_self
  exact splitSign.eq_3 _ (fun _ h => ne_of_isDigitMark hc (by decide) (List.cons.inj h).1)
    fun _ h => ne_of_isDigitMark hc (by decide) (List.cons.inj h).1

/-- **Digits after minus signs** are an integer just if there is one sign at most and the digits are
a number. -/
theorem readInteger_minus_iff {k : Nat} {n : Int} :
    readInteger (List.replicate k '-' ++ ds) = .ok n ↔
      k ≤ 1 ∧ ∃ m, readMagnitude digitValue? ds = .ok m ∧ n = signed (decide (k = 1)) m := by
  have htrim : trimBy isNumberBlank (List.replicate k '-' ++ ds) = List.replicate k '-' ++ ds :=
    trimBy_of_forall fun c hc => isNumberBlank_eq_false (isBlank_minus hmarks hc)
  rw [readInteger_eq_ok_iff, htrim]
  obtain rfl | rfl | ⟨k', rfl⟩ : k = 0 ∨ k = 1 ∨ ∃ k', k = k' + 2 := by
    by_cases hk : k ≤ 1
    · omega
    · exact .inr (.inr ⟨k - 2, by omega⟩)
  · rw [List.replicate_zero, List.nil_append, splitSign_marks hne hmarks]
    simp
  · simp [splitSign]
  · -- After the first sign, the second one is no digit.
    refine iff_of_false ?_ (by omega)
    rw [List.replicate_succ, List.replicate_succ]
    show ¬ ∃ m, readMagnitude _ ('-' :: _) = .ok m ∧ _
    simp [readMagnitude_minus]

end

/-! ## Decimal notation -/

theorem toList_decimal (n : Int) :
    (decimal n).toList
      = List.replicate (if n < 0 then 1 else 0) '-' ++ Nat.toDigits 10 n.natAbs := by
  rw [decimal, Int.toString_eq_repr, Int.repr_eq_if]
  by_cases h : n < 0
  · rw [if_neg (by omega), if_pos h, String.toList_append, Nat.toList_repr,
      show (-n).toNat = n.natAbs by omega]
    rfl
  · rw [if_pos (by omega), if_neg h, Nat.toList_repr, show n.toNat = n.natAbs by omega]
    rfl

theorem digitValue?_of_isDigit {c : Char} (h : c.isDigit = true) :
    digitValue? c = some (c.toNat - 48) := by
  have hrange : 48 ≤ c.toNat ∧ c.toNat ≤ 57 := by
    simpa [Char.isDigit, UInt32.le_iff_toNat_le] using h
  have hfirst : (decide (48 ≤ c.toNat) && decide (c.toNat < 48 + 10)) = true := by
    simp only [Bool.and_eq_true, decide_eq_true_eq]
    omega
  have hfind : (zeroDigits.find? fun z => z ≤ c.toNat && c.toNat < z + 10) = some 48 := by
    rw [show zeroDigits = 48 :: zeroDigits.tail from rfl]
    exact List.find?_cons_of_pos hfirst
  rw [digitValue?, hfind]
  rfl

theorem isDecimalDigit_of_isDigit {c : Char} (h : c.isDigit = true) : isDecimalDigit c = true := by
  rw [isDecimalDigit, digitValue?_of_isDigit h]
  rfl

theorem ofDigits_filterMap {ds : List Char} (h : ∀ c ∈ ds, c.isDigit = true) :
    ofDigits (ds.filterMap digitValue?) = Nat.ofDigitChars 10 ds 0 := by
  unfold ofDigits
  generalize 0 = n
  induction ds generalizing n with
  | nil => rw [Nat.ofDigitChars_nil]; rfl
  | cons c ds ih =>
    rw [List.forall_mem_cons] at h
    rw [List.filterMap_cons_some (digitValue?_of_isDigit h.1), List.foldl_cons, ih h.2,
      Nat.ofDigitChars_cons]
    rfl

theorem isDigit_of_mem_toDigits {n : Nat} {c : Char} (h : c ∈ Nat.toDigits 10 n) :
    c.isDigit = true :=
  Nat.isDigit_of_mem_toDigits (by decide) (by decide) h

theorem isDigitMark_of_mem_toDigits {n : Nat} {c : Char} (h : c ∈ Nat.toDigits 10 n) :
    isDigitMark c = true :=
  isDigitMark_of_isDecimalDigit (isDecimalDigit_of_isDigit (isDigit_of_mem_toDigits h))

/-- **The decimal notation** of an integer is read as that integer, if it is not too long. -/
theorem readInteger_decimal {n : Int} (h : (Nat.toDigits 10 n.natAbs).length ≤ digitLimit) :
    readInteger (decimal n).toList = .ok n := by
  rw [toList_decimal, readInteger_minus_iff Nat.toDigits_ne_nil fun _ hc =>
    isDigitMark_of_mem_toDigits hc]
  refine ⟨by split <;> omega, n.natAbs, ?_, ?_⟩
  · rw [readMagnitude_eq_ok_iff Nat.toDigits_ne_nil fun _ hc => isDigitMark_of_mem_toDigits hc]
    refine ⟨fun c hc => isDecimalDigit_of_isDigit (isDigit_of_mem_toDigits hc), h, ?_⟩
    rw [ofDigits_filterMap fun _ hc => isDigit_of_mem_toDigits hc, Nat.ofDigitChars_ten_toDigits]
  · by_cases hneg : n < 0
    · rw [if_pos hneg, signed, if_pos (decide_eq_true rfl),
        Int.ofNat_natAbs_of_nonpos (Int.le_of_lt hneg), Int.neg_neg]
    · rw [if_neg hneg, signed, if_neg (by decide), Int.natAbs_of_nonneg (Int.not_lt.1 hneg)]

end EventCalendar.Text
