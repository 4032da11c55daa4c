import EventCalendar.Proofs.FilterValues
import EventCalendar.Proofs.IntegerText

/-!
# Texts of filters

A filter parameter is a word for no entity or for all, or a list of ids between commas:

* `Numeral.plain`, `numeral_decimal`: numerals hold no blanks, letters or commas, and the decimal
  notation of an integer is one.
* `map_trim_splitCommas_trim`: blanks around a text belong to its outer parts.
* `Spells`: the parts of a list, numerals between blanks or blanks alone; `idList?_eq_some_iff`,
  `idsOf?_eq_none_iff`.
* `idList?_trim`, `idList?_lowered`: neither blanks around a text nor capital letters make a
  difference to its ids.
* `readFilter_eq_ok_iff`, `exists_readFilter_error_iff`: which texts are filters.
* `readFilter_spelled`: **what filter parameters are read as**.
-/

set_option autoImplicit false

namespace EventCalendar

namespace Text

/-! ## Characters of numerals -/

theorem isAlpha_eq_false_iff {c : Char} :
    c.isAlpha = false ↔ ¬ (65 ≤ c.toNat ∧ c.toNat ≤ 90) ∧ ¬ (97 ≤ c.toNat ∧ c.toNat ≤ 122) := by
  have hletters : c.isAlpha = (decide (65 ≤ c.toNat ∧ c.toNat ≤ 90) ||
      (decide (97 ≤ c.toNat) && decide (c.toNat ≤ 122))) := rfl
  simp [hletters]

theorem isAlpha_of_isDecimalDigit {c : Char} (h : isDecimalDigit c = true) : c.isAlpha = false := by
  have hzeros : ∀ z ∈ zeroDigits, z = 48 ∨ 122 < z := by decide
  obtain ⟨z, hz, hle, hlt⟩ := isDecimalDigit_iff.1 h
  have := hzeros z hz
  rw [isAlpha_eq_false_iff]
  omega

theorem isAlpha_of_isBlank {c : Char} (h : isBlank c = true) : c.isAlpha = false := by
  have hblanks : ∀ r ∈ blankRanges, r.2 < 65 ∨ 122 < r.1 := by decide
  obtain ⟨r, hr, hlo, hhi⟩ := inRanges_iff.1 h
  have := hblanks r hr
  rw [isAlpha_eq_false_iff]
  omega

namespace Numeral

variable {s : List Char} {k : Nat} {n : Int}

theorem isBlank_eq_false (h : Numeral s k n) {c : Char} (hc : c ∈ s) : isBlank c = false := by
  rcases h.mem hc with rfl | rfl | rfl | hdigit
  · decide
  · decide
  · decide
  · exact isBlank_of_isDigitMark (isDigitMark_of_isDecimalDigit hdigit)

theorem plain (h : Numeral s k n) {c : Char} (hc : c ∈ s) : c.isAlpha = false ∧ c ≠ ',' := by
  rcases h.mem hc with rfl | rfl | rfl | hdigit
  · decide
  · decide
  · decide
  · exact ⟨isAlpha_of_isDecimalDigit hdigit,
      ne_of_isDigitMark (isDigitMark_of_isDecimalDigit hdigit) (by decide)⟩

end Numeral

theorem integer?_trim_eq_some_iff {s : List Char} {n : Int} :
    integer? (trim s) = some n ↔ ∃ k ≤ digitLimit, Numeral (trim s) k n := by
  have htrim : trimBy isNumberBlank (trim s) = trim s :=
    trimBy_trimBy (fun c hc => (Bool.and_eq_true _ _ ▸ hc).1) s
  rw [integer?_eq_some_iff, htrim]

theorem numeral_decimal (n : Int) :
    Numeral (decimal n).toList (Nat.toDigits 10 n.natAbs).length n := by
  have hmarks : ∀ c ∈ Nat.toDigits 10 n.natAbs, isDecimalDigit c = true := fun c hc =>
    isDecimalDigit_of_isDigit (isDigit_of_mem_toDigits hc)
  have hdigits := digits_row Nat.toDigits_ne_nil hmarks
  have hvalue : ofDigits ((Nat.toDigits 10 n.natAbs).filterMap digitValue?) = n.natAbs := by
    rw [ofDigits_filterMap fun _ hc => isDigit_of_mem_toDigits hc, Nat.ofDigitChars_ten_toDigits]
  rw [toList_decimal, ← length_filterMap_digitValue? hmarks]
  by_cases hneg : n < 0
  · rw [if_pos hneg]
    have h := Numeral.minus hdigits
    rwa [hvalue, show -(n.natAbs : Int) = n by omega] at h
  · rw [if_neg hneg]
    have h := Numeral.unsigned hdigits
    rwa [hvalue, show (n.natAbs : Int) = n by omega] at h

/-- Lower case changes letters only, and to letters. -/
theorem toLower_eq_self {c : Char} (h : c.isAlpha = false ∨ c.toLower.isAlpha = false) :
    c.toLower = c := by
  unfold Char.toLower at h ⊢
  split
  · rename_i hupper
    rw [dif_pos hupper, isAlpha_eq_false_iff, isAlpha_eq_false_iff] at h
    obtain ⟨hlo, hhi⟩ := hupper
    have hlo' : 65 ≤ c.val.toNat := UInt32.le_iff_toNat_le.1 hlo
    have hhi' : c.val.toNat ≤ 90 := UInt32.le_iff_toNat_le.1 hhi
    have hnext : (c.val + ('a'.val - 'A'.val)).toNat = c.val.toNat + 32 := by
      rw [UInt32.toNat_add]
      exact Nat.mod_eq_of_lt (by show c.val.toNat + 32 < 4294967296; omega)
    simp only [Char.toNat, hnext] at h
    omega
  · rfl

theorem lowered_eq_self {s : List Char}
    (h : ∀ c ∈ s, c.isAlpha = false ∨ c.toLower.isAlpha = false) : lowered s = s := by
  have hsame : ∀ c ∈ s, c.toLower = id c := fun c hc => toLower_eq_self (h c hc)
  rw [lowered, List.map_congr_left hsame, List.map_id]

end Text

namespace Parameters

open Text (isBlank trim lowered integer? Numeral digitLimit)

/-! ## Parts between commas -/

theorem splitCommas_eq (s : List Char) : splitCommas s = s.splitOn ',' := by
  induction s using splitCommas.induct with
  | case1 => rfl
  | case2 rest ih =>
    rw [splitCommas, ih, List.splitOn_cons_eq_if_modifyHead]
    rfl
  | case3 c rest hc part parts hparts ih =>
    rw [splitCommas.eq_3 c rest hc, List.splitOn_cons_eq_if_modifyHead, ← ih, hparts,
      if_neg (by simpa using hc)]
    rfl
  | case4 c rest hc hparts ih => exact absurd (ih ▸ hparts) (List.splitOn_ne_nil _ _)

theorem splitCommas_ne_nil (s : List Char) : splitCommas s ≠ [] :=
  splitCommas_eq s ▸ List.splitOn_ne_nil _ _

theorem splitCommas_cons_of_ne {c : Char} (hc : c ≠ ',') (s : List Char) :
    splitCommas (c :: s) = (splitCommas s).modifyHead (c :: ·) := by
  rw [splitCommas_eq, splitCommas_eq, List.splitOn_cons_eq_if_modifyHead,
    if_neg (by simpa using hc)]

theorem splitCommas_append_left {l : List Char} (hl : ∀ c ∈ l, c ≠ ',') (s : List Char) :
    splitCommas (l ++ s) = (splitCommas s).modifyHead (l ++ ·) := by
  induction l with
  | nil =>
    rw [List.nil_append]
    cases splitCommas s <;> rfl
  | cons c l ih =>
    rw [List.forall_mem_cons] at hl
    rw [List.cons_append, splitCommas_cons_of_ne hl.1, ih hl.2]
    cases splitCommas s <;> rfl

theorem exists_splitCommas_append_right {r : List Char} (hr : ∀ c ∈ r, c ≠ ',') (s : List Char) :
    ∃ first last, splitCommas s = first ++ [last] ∧
      splitCommas (s ++ r) = first ++ [last ++ r] := by
  induction s with
  | nil =>
    have hparts : splitCommas r = [r] := by
      rw [splitCommas_eq, List.splitOn_eq_singleton fun h => hr _ h rfl]
    exact ⟨[], [], rfl, hparts⟩
  | cons c s ih =>
    obtain ⟨first, last, hs, hsr⟩ := ih
    by_cases hc : c = ','
    · subst hc
      exact ⟨[] :: first, last, by rw [splitCommas, hs]; rfl, by
        rw [List.cons_append, splitCommas, hsr]; rfl⟩
    · rw [List.cons_append, splitCommas_cons_of_ne hc, splitCommas_cons_of_ne hc, hs, hsr]
      cases first with
      | nil => exact ⟨[], c :: last, rfl, rfl⟩
      | cons part first => exact ⟨(c :: part) :: first, last, rfl, rfl⟩

theorem mem_splitCommas {s : List Char} {c : Char} (hc : c ∈ s) :
    c = ',' ∨ ∃ part ∈ splitCommas s, c ∈ part := by
  induction s with
  | nil => cases hc
  | cons d s ih =>
    by_cases hd : d = ','
    · subst hd
      rw [splitCommas, List.exists_mem_cons_iff]
      rcases List.mem_cons.1 hc with rfl | hc
      · exact .inl rfl
      · exact (ih hc).imp_right .inr
    · obtain ⟨part, parts, hparts⟩ := List.exists_cons_of_ne_nil (splitCommas_ne_nil s)
      rw [splitCommas_cons_of_ne hd, hparts, List.modifyHead_cons, List.exists_mem_cons_iff]
      rw [hparts, List.exists_mem_cons_iff] at ih
      rcases List.mem_cons.1 hc with rfl | hc
      · exact .inr (.inl List.mem_cons_self)
      · exact (ih hc).imp_right fun h => h.imp_left (List.mem_cons_of_mem d)

theorem ne_comma_of_isBlank {s : List Char} (h : ∀ c ∈ s, isBlank c = true) : ∀ c ∈ s, c ≠ ',' := by
  rintro c hc rfl
  exact absurd (h _ hc) (by decide)

theorem map_trim_splitCommas_trim (s : List Char) :
    (splitCommas (trim s)).map trim = (splitCommas s).map trim := by
  obtain ⟨l, r, hs, hl, hr⟩ := Text.exists_eq_trimBy isBlank s
  obtain ⟨first, last, hleft, hright⟩ :=
    exists_splitCommas_append_right (ne_comma_of_isBlank hr) (l ++ trim s)
  have hend : (splitCommas s).map trim = (splitCommas (l ++ trim s)).map trim := by
    rw [hleft, show s = l ++ trim s ++ r from hs, hright]
    simp [trim, Text.trimBy_append_right hr]
  rw [hend, splitCommas_append_left (ne_comma_of_isBlank hl)]
  cases splitCommas (trim s) with
  | nil => rfl
  | cons part parts => simp [trim, Text.trimBy_append_left hl]

/-! ## Ids -/

/-- The ids in the parts of a list. -/
def idsOf? (parts : List (List Char)) : Option (List Int) :=
  ((parts.map trim).filter fun part => !part.isEmpty).mapM integer?

theorem idList?_eq (s : List Char) : idList? s = idsOf? (splitCommas s) := rfl

theorem idsOf?_cons (part : List Char) (parts : List (List Char)) :
    idsOf? (part :: parts) = if trim part = [] then idsOf? parts
      else (integer? (trim part)).bind fun n => (idsOf? parts).map (n :: ·) := by
  unfold idsOf?
  rw [List.map_cons, List.filter_cons]
  by_cases h : trim part = []
  · rw [if_pos h, h]
    rfl
  · rw [if_neg h, if_pos (by simpa using h), List.mapM_cons]
    cases integer? (trim part) with
    | none => rfl
    | some n => cases ((parts.map trim).filter fun part => !part.isEmpty).mapM integer? <;> rfl

/-- The parts of a list of ids: numerals between blanks, whose digits are counted as they are
written, leading zeros included, and blanks alone, which are no id. -/
inductive Spells : List (List Char) → List Int → Prop
  | nil : Spells [] []
  | blank {part : List Char} {parts : List (List Char)} {ids : List Int} :
      (∀ c ∈ part, isBlank c = true) → Spells parts ids → Spells (part :: parts) ids
  | numeral {l s r : List Char} {k : Nat} {n : Int} {parts : List (List Char)} {ids : List Int} :
      (∀ c ∈ l, isBlank c = true) → (∀ c ∈ r, isBlank c = true) → Numeral s k n → k ≤ digitLimit →
      Spells parts ids → Spells ((l ++ s ++ r) :: parts) (n :: ids)

theorem trim_numeral {l s r : List Char} {k : Nat} {n : Int} (hl : ∀ c ∈ l, isBlank c = true)
    (hr : ∀ c ∈ r, isBlank c = true) (hs : Numeral s k n) : trim (l ++ s ++ r) = s := by
  rw [trim, Text.trimBy_between hl hr, Text.trimBy_of_forall fun _ => hs.isBlank_eq_false]

theorem idsOf?_eq_some_iff {parts : List (List Char)} {ids : List Int} :
    idsOf? parts = some ids ↔ Spells parts ids := by
  constructor
  · intro h
    induction parts generalizing ids with
    | nil =>
      obtain rfl : [] = ids := Option.some.inj h
      exact .nil
    | cons part parts ih =>
      rw [idsOf?_cons] at h
      split at h
      · rename_i hblank
        exact .blank (Text.trimBy_eq_nil_iff.1 hblank) (ih h)
      · obtain ⟨n, hn, h⟩ := Option.bind_eq_some_iff.1 h
        obtain ⟨ids', hids, rfl⟩ := Option.map_eq_some_iff.1 h
        obtain ⟨k, hk, hnumeral⟩ := Text.integer?_trim_eq_some_iff.1 hn
        obtain ⟨l, r, hpart, hl, hr⟩ := Text.exists_eq_trimBy isBlank part
        rw [hpart]
        exact .numeral hl hr hnumeral hk (ih hids)
  · intro h
    induction h with
    | nil => rfl
    | @blank part _ _ hblank _ ih =>
      have htrim : trim part = [] := Text.trimBy_eq_nil_iff.2 hblank
      rw [idsOf?_cons, if_pos htrim, ih]
    | numeral hl hr hs hk _ ih =>
      have htrim := trim_numeral hl hr hs
      rw [idsOf?_cons, htrim, if_neg hs.ne_nil, ih, ← htrim,
        Text.integer?_trim_eq_some_iff.2 ⟨_, hk, by rwa [htrim]⟩]
      rfl

theorem idsOf?_eq_none_iff {parts : List (List Char)} :
    idsOf? parts = none ↔ ∃ part ∈ parts, trim part ≠ [] ∧
      ∀ k n, Numeral (trim part) k n → digitLimit < k := by
  have hinteger : ∀ part, integer? (trim part) = none ↔
      ∀ k n, Numeral (trim part) k n → digitLimit < k := by
    intro part
    simp only [Option.eq_none_iff_forall_ne_some, ne_eq, Text.integer?_trim_eq_some_iff]
    constructor
    · intro h k n hs
      by_contra hk
      exact h n ⟨k, by omega, hs⟩
    · intro h n hs
      obtain ⟨k, hk, hs⟩ := hs
      have := h k n hs
      omega
  induction parts with
  | nil => exact iff_of_false (fun h => by cases h) fun h => by simp at h
  | cons part parts ih =>
    rw [idsOf?_cons, List.exists_mem_cons_iff, ← hinteger]
    by_cases hblank : trim part = []
    · simp [hblank, ih]
    · rw [if_neg hblank]
      cases integer? (trim part) <;> simp [hblank, ih]

namespace Spells

variable {parts : List (List Char)} {ids : List Int}

theorem plain (h : Spells parts ids) {part : List Char} (hpart : part ∈ parts) {c : Char}
    (hc : c ∈ part) : c.isAlpha = false ∧ c ≠ ',' := by
  have hblank : ∀ {u : List Char}, (∀ c ∈ u, isBlank c = true) → c ∈ u →
      c.isAlpha = false ∧ c ≠ ',' := fun hu hc =>
    ⟨Text.isAlpha_of_isBlank (hu c hc), ne_comma_of_isBlank hu c hc⟩
  induction h with
  | nil => cases hpart
  | blank hu _ ih =>
    rcases List.mem_cons.1 hpart with rfl | hpart
    · exact hblank hu hc
    · exact ih hpart
  | numeral hl hr hs _ _ ih =>
    rcases List.mem_cons.1 hpart with rfl | hpart
    · rcases List.mem_append.1 hc with hc | hc
      · exact (List.mem_append.1 hc).elim (hblank hl) hs.plain
      · exact hblank hr hc
    · exact ih hpart

theorem splitCommas_intercalate (h : Spells parts ids) (hne : parts ≠ []) :
    splitCommas ([','].intercalate parts) = parts := by
  rw [splitCommas_eq]
  exact List.splitOn_intercalate ',' (fun part hpart hc => (h.plain hpart hc).2 rfl) hne

theorem idList? (h : Spells parts ids) : idList? ([','].intercalate parts) = some ids := by
  cases parts with
  | nil =>
    cases h
    rfl
  | cons part parts =>
    rw [idList?_eq, h.splitCommas_intercalate (List.cons_ne_nil _ _), idsOf?_eq_some_iff]
    exact h

end Spells

theorem idList?_eq_some_iff {s : List Char} {ids : List Int} :
    idList? s = some ids ↔ Spells (splitCommas s) ids := idsOf?_eq_some_iff

theorem idList?_trim (s : List Char) : idList? (trim s) = idList? s := by
  simp only [idList?, map_trim_splitCommas_trim]

/-- Capital letters make no difference to ids, since a text with letters is no list. -/
theorem idList?_lowered (s : List Char) : idList? (lowered s) = idList? s := by
  have hplain : ∀ {s ids}, idList? s = some ids → ∀ c ∈ s, c.isAlpha = false := by
    intro s ids h c hc
    rcases mem_splitCommas hc with rfl | ⟨part, hpart, hc⟩
    · decide
    · exact ((idList?_eq_some_iff.1 h).plain hpart hc).1
  refine Option.ext fun ids => ⟨fun h => ?_, fun h => ?_⟩
  · have hs : lowered s = s :=
      Text.lowered_eq_self fun c hc => .inr (hplain h _ (List.mem_map_of_mem hc))
    rwa [hs] at h
  · rwa [Text.lowered_eq_self fun c hc => .inl (hplain h c hc)]

/-! ## Filter parameters -/

/-- The filter that a list of ids asks for: an empty list asks for none. -/
def filterOf : List Int → IdFilter
  | [] => .none
  | ids => .ids ids

def unreadFilter (name : String) : ParameterFault :=
  .invalid name (name ++ " must be 'all', 'none' or a comma-separated list of ids")

/-- The text of a filter parameter without the blanks around it, in small letters. -/
def normalized (raw : String) : List Char := lowered (trim raw.toList)

section
variable {raw : String} {name : String}

/-- The words are no lists, so that a list is read as its ids. -/
theorem readFilter_of_ids {ids : List Int} (h : idList? (normalized raw) = some ids) :
    readFilter (some raw) name = .ok (filterOf ids) := by
  have hword : ∀ word : String, idList? word.toList = none →
      Text.isWordIgnoringCase word (trim raw.toList) = false := by
    intro word hnone
    rw [Text.isWordIgnoringCase, beq_eq_false_iff_ne]
    intro hraw
    rw [normalized, hraw, hnone] at h
    cases h
  simp only [readFilter, hword "none" (by decide), hword "all" (by decide), Bool.or_false]
  rw [normalized, idList?_lowered] at h
  cases hempty : (trim raw.toList).isEmpty with
  | true =>
    rw [List.isEmpty_iff.1 hempty] at h
    obtain rfl : [] = ids := Option.some.inj h
    rfl
  | false =>
    rw [h]
    cases ids <;> rfl

theorem readFilter_of_no_ids (h : idList? (normalized raw) = none) :
    readFilter (some raw) name =
      if normalized raw = "none".toList then .ok .none
      else if normalized raw = "all".toList then .ok .all
      else .error (unreadFilter name) := by
  rw [normalized, idList?_lowered] at h
  have hempty : (trim raw.toList).isEmpty = false := by
    rw [List.isEmpty_eq_false_iff]
    intro hempty
    rw [hempty] at h
    cases h
  simp only [readFilter, hempty, Bool.false_or, Text.isWordIgnoringCase, beq_iff_eq, normalized, h]
  rfl

/-- **A filter that is read** is that of a word, or of the ids that the text spells. -/
theorem readFilter_eq_ok_iff {f : IdFilter} :
    readFilter (some raw) name = .ok f ↔
      normalized raw = "none".toList ∧ f = .none ∨ normalized raw = "all".toList ∧ f = .all ∨
        ∃ ids, Spells (splitCommas (normalized raw)) ids ∧ f = filterOf ids := by
  have hnone : idList? "none".toList = none := by decide
  have hall : idList? "all".toList = none := by decide
  simp only [← idList?_eq_some_iff]
  cases hids : idList? (normalized raw) with
  | some ids =>
    have hwords : normalized raw ≠ "none".toList ∧ normalized raw ≠ "all".toList := by
      refine ⟨fun h => ?_, fun h => ?_⟩
      · rw [h, hnone] at hids
        cases hids
      · rw [h, hall] at hids
        cases hids
    simp only [readFilter_of_ids hids, hwords.1, hwords.2, false_and, false_or, Except.ok.injEq,
      Option.some.injEq, exists_eq_left']
    exact eq_comm
  | none =>
    rw [readFilter_of_no_ids hids]
    split
    · rename_i h
      simp [h, eq_comm]
    · split
      · rename_i h
        simp [h, eq_comm]
      · simp_all

/-- **A text is no filter** exactly if it is no word and one of its parts is neither blank nor a
numeral. -/
theorem exists_readFilter_error_iff :
    (∃ fault, readFilter (some raw) name = .error fault) ↔
      normalized raw ≠ [] ∧ normalized raw ≠ "none".toList ∧ normalized raw ≠ "all".toList ∧
        ∃ part ∈ splitCommas (normalized raw), trim part ≠ [] ∧
          ∀ k n, Numeral (trim part) k n → digitLimit < k := by
  rw [← idsOf?_eq_none_iff, ← idList?_eq]
  cases hids : idList? (normalized raw) with
  | some ids =>
    rw [readFilter_of_ids hids]
    simp
  | none =>
    have hempty : normalized raw ≠ [] := by
      intro h
      rw [h] at hids
      cases hids
    rw [readFilter_of_no_ids hids]
    split
    · simp_all
    · split <;> simp_all

theorem readFilter_eq_error {fault : ParameterFault}
    (h : readFilter (some raw) name = .error fault) : fault = unreadFilter name := by
  cases hids : idList? (normalized raw) with
  | some ids =>
    rw [readFilter_of_ids hids] at h
    cases h
  | none =>
    rw [readFilter_of_no_ids hids] at h
    split at h
    · cases h
    · split at h <;> cases h
      rfl

theorem ne_nil_of_readFilter {ids : List Int} (h : readFilter (some raw) name = .ok (.ids ids)) :
    ids ≠ [] := by
  rintro rfl
  obtain ⟨-, h⟩ | ⟨-, h⟩ | ⟨ids, -, h⟩ := readFilter_eq_ok_iff.1 h
  · cases h
  · cases h
  · cases ids <;> cases h

end

theorem exists_coerce_value (dimension : String) (f : IdFilter) :
    ∃ g, FilterSpec.coerce dimension f.value = .ok g := by
  refine FilterSpec.exists_coerce_of_meansFilter dimension ?_
  cases f with
  | none => trivial
  | all => trivial
  | ids listed => exact ⟨listed.map .int, rfl, by simp⟩

theorem coerce_filterOf (dimension : String) (ids : List Int) :
    FilterSpec.coerce dimension (filterOf ids).value
      = FilterSpec.coerce dimension (.list (ids.map .int)) := by
  cases ids <;> rfl

theorem spells_decimal {ids : List Int}
    (h : ∀ n ∈ ids, (Nat.toDigits 10 n.natAbs).length ≤ digitLimit) :
    Spells (ids.map fun n => (Text.decimal n).toList) ids := by
  induction ids with
  | nil => exact .nil
  | cons n ids ih =>
    rw [List.forall_mem_cons] at h
    have hn := Spells.numeral (l := []) (r := []) (List.forall_mem_nil _) (List.forall_mem_nil _)
      (Text.numeral_decimal n) h.1 (ih h.2)
    rwa [List.append_nil] at hn

theorem normalized_ofList (s : List Char) : idList? (normalized (String.ofList s)) = idList? s := by
  rw [normalized, idList?_lowered, idList?_trim, String.toList_ofList]

/-- **What filter parameters are read as.** The decimal notations of integers that do not have more
digits than are read spell a list of them. A list in any spelling, with any blanks around the ids
and any number of blank parts, is read as its ids, and makes the filter that the list of them makes.
A text is read as the filter of a word, or of the ids that it spells, which are some; or it is
reported under the name of the parameter. It is reported exactly if it is no word, in small letters
and without the blanks around it, and some part that is not blank is no numeral of as many digits as
are read. What is read always makes a filter. -/
theorem readFilter_spelled (name dimension : String) :
    (∀ ids : List Int, (∀ n ∈ ids, (Nat.toDigits 10 n.natAbs).length ≤ digitLimit) →
      Spells (ids.map fun n => (Text.decimal n).toList) ids) ∧
    (∀ parts ids, Spells parts ids → ∃ f,
      readFilter (some (String.ofList ([','].intercalate parts))) name = .ok f ∧
        f = filterOf ids ∧
        FilterSpec.coerce dimension f.value
          = FilterSpec.coerce dimension (.list (ids.map .int))) ∧
    ∀ raw : String,
      (∀ f, readFilter (some raw) name = .ok f ↔
        normalized raw = "none".toList ∧ f = .none ∨ normalized raw = "all".toList ∧ f = .all ∨
          ∃ ids, Spells (splitCommas (normalized raw)) ids ∧ f = filterOf ids) ∧
      (∀ ids, readFilter (some raw) name = .ok (.ids ids) → ids ≠ []) ∧
      (∀ fault, readFilter (some raw) name = .error fault → fault = unreadFilter name) ∧
      ((∃ fault, readFilter (some raw) name = .error fault) ↔
        normalized raw ≠ [] ∧ normalized raw ≠ "none".toList ∧ normalized raw ≠ "all".toList ∧
          ∃ part ∈ splitCommas (normalized raw), trim part ≠ [] ∧
            ∀ k n, Numeral (trim part) k n → digitLimit < k) ∧
      ∀ f, readFilter (some raw) name = .ok f →
        ∃ g, FilterSpec.coerce dimension f.value = .ok g := by
  refine ⟨fun ids => spells_decimal, fun parts ids h => ⟨filterOf ids, ?_, rfl, ?_⟩, fun raw => ?_⟩
  · refine readFilter_of_ids ?_
    rw [normalized_ofList, h.idList?]
  · exact coerce_filterOf dimension ids
  · exact ⟨fun f => readFilter_eq_ok_iff, fun ids => ne_nil_of_readFilter,
      fun fault => readFilter_eq_error, exists_readFilter_error_iff,
      fun f _ => exists_coerce_value dimension f⟩

/-- A list with a sign, an underscore, a digit of another script and a blank part, and a text with
two underscores side by side. -/
theorem readFilter_spelled_of_scripts :
    Spells [" +1_0 ".toList, [], "٣".toList, "-0\t".toList] [10, 3, 0] ∧
      readFilter (some " +1_0 ,,٣,-0\t") "courses" = .ok (.ids [10, 3, 0]) ∧
      (∃ g, FilterSpec.coerce "courses" (IdFilter.ids [10, 3, 0]).value = .ok g) ∧
      readFilter (some "10,1__0") "courses" = .error (unreadFilter "courses") := by
  obtain ⟨-, hspelled, hread⟩ := readFilter_spelled "courses" "courses"
  have hparts : Spells [" +1_0 ".toList, [], "٣".toList, "-0\t".toList] [10, 3, 0] :=
    idsOf?_eq_some_iff.1 (by decide)
  obtain ⟨f, hf, rfl, -⟩ := hspelled _ _ hparts
  have hids : readFilter (some " +1_0 ,,٣,-0\t") "courses" = .ok (.ids [10, 3, 0]) := hf
  obtain ⟨-, -, hfault, hrefused, -⟩ := hread "10,1__0"
  have hpart : ∃ part ∈ splitCommas (normalized "10,1__0"), trim part ≠ [] ∧
      ∀ k n, Numeral (trim part) k n → digitLimit < k := idsOf?_eq_none_iff.1 (by decide)
  obtain ⟨fault, h⟩ := hrefused.2 ⟨by decide, by decide, by decide, hpart⟩
  exact ⟨hparts, hids, (hread _).2.2.2.2 _ hids, hfault fault h ▸ h⟩

end Parameters

end EventCalendar
