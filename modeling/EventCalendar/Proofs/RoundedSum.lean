import EventCalendar.Sql.Cell
import Mathlib.Data.Nat.Log
import Mathlib.Tactic.Positivity
import Mathlib.Tactic.Ring

/-!
# Sums beyond the range of a cell

A sum of integers that does not fit into a cell is taken of doubles: both integers are rounded, and
so is their sum. Three roundings could move a sum back into the range of cells; they do not.

* `nearest`, `equalsInt_roundRatio`: the double nearest to an integer is an integer again.
* `le_nearest_of_dvd`: rounding does not step over a multiple of its unit.
* `le_nearest_add`: **a sum that is too wide** stays so when it is taken of doubles.
* `Cell.compare_add_eq_gt_iff`: a cell is exceeded by such a sum exactly if the exact sum exceeds
  it.
-/

set_option autoImplicit false

namespace EventCalendar

namespace Binary64

/-! ## Fractions of powers of two -/

theorem roundHalfEven_one (n : Nat) : roundHalfEven n 1 = n := by
  simp [roundHalfEven, Nat.mod_one]

theorem roundHalfEven_mul (n d : Nat) {c : Nat} (hc : 0 < c) :
    roundHalfEven (n * c) (d * c) = roundHalfEven n d := by
  have hlt : d * c < 2 * (n % d * c) ↔ d < 2 * (n % d) := by
    rw [← Nat.mul_assoc]
    exact Nat.mul_lt_mul_right hc
  have heq : 2 * (n % d * c) = d * c ↔ 2 * (n % d) = d := by
    rw [← Nat.mul_assoc]
    exact Nat.mul_right_cancel_iff hc
  simp only [roundHalfEven, Nat.mul_div_mul_right n d hc, Nat.mul_mod_mul_right, hlt, heq]

theorem scaleDown_mul (n d c : Nat) (e : Int) :
    scaleDown (n * c) (d * c) e = ((scaleDown n d e).1 * c, (scaleDown n d e).2 * c) := by
  unfold scaleDown
  split <;> simp only [Nat.mul_right_comm]

theorem log2_mul_two_pow {n : Nat} (hn : n ≠ 0) (j : Nat) : (n * 2 ^ j).log2 = n.log2 + j := by
  refine (Nat.log2_eq_iff (Nat.mul_ne_zero hn (Nat.two_pow_pos j).ne')).2 ⟨?_, ?_⟩
  · rw [Nat.pow_add]
    exact Nat.mul_le_mul_right _ (Nat.log2_self_le hn)
  · rw [Nat.add_right_comm, Nat.pow_add]
    exact Nat.mul_lt_mul_of_pos_right Nat.lt_log2_self (Nat.two_pow_pos j)

theorem exponentFor_mul_two_pow {n d : Nat} (hn : n ≠ 0) (hd : d ≠ 0) (j : Nat) :
    exponentFor (n * 2 ^ j) (d * 2 ^ j) = exponentFor n d := by
  have he : ((n * 2 ^ j).log2 : Int) - (d * 2 ^ j).log2 - 53 = n.log2 - d.log2 - 53 := by
    rw [log2_mul_two_pow hn, log2_mul_two_pow hd]
    omega
  simp only [exponentFor, he, scaleDown_mul, Nat.mul_div_mul_right _ _ (Nat.two_pow_pos j)]

/-- Rounding depends on the value of a fraction, not on its terms. -/
theorem roundRatio_mul_two_pow (negative : Bool) (n : Nat) {d : Nat} (hd : d ≠ 0) (j : Nat) :
    roundRatio negative (n * 2 ^ j) (d * 2 ^ j) = roundRatio negative n d := by
  by_cases hn : n = 0
  · simp [roundRatio, hn]
  have hnj : n * 2 ^ j ≠ 0 := Nat.mul_ne_zero hn (Nat.two_pow_pos j).ne'
  simp only [roundRatio, hn, hnj, if_false, exponentFor_mul_two_pow hn hd, scaleDown_mul,
    roundHalfEven_mul _ _ (Nat.two_pow_pos j)]

/-! ## The nearest integer -/

/-- The number of binary digits of an integer that a significand has no place for. -/
def droppedBits (n : Nat) : Nat := n.log2 - 52

/-- The integer that the double nearest to a natural number is. -/
def nearest (n : Nat) : Nat := roundHalfEven n (2 ^ droppedBits n) * 2 ^ droppedBits n

theorem droppedBits_mono {m n : Nat} (h : m ≤ n) : droppedBits m ≤ droppedBits n := by
  unfold droppedBits
  rw [Nat.log2_eq_log_two, Nat.log2_eq_log_two]
  exact Nat.sub_le_sub_right (Nat.log_mono_right h) 52

theorem droppedBits_le {n k : Nat} (h : n < 2 ^ (k + 53)) : droppedBits n ≤ k := by
  unfold droppedBits
  rcases Nat.eq_zero_or_pos n with rfl | hn
  · simp
  · have := (Nat.log2_lt hn.ne').2 h
    omega

theorem two_pow_droppedBits_dvd {n k j : Nat} (h : n < 2 ^ (k + 53)) (hkj : k ≤ j) :
    2 ^ droppedBits n ∣ 2 ^ j :=
  Nat.pow_dvd_pow 2 ((droppedBits_le h).trans hkj)

theorem dvd_nearest (n : Nat) : 2 ^ droppedBits n ∣ nearest n := Nat.dvd_mul_left _ _

theorem nearest_zero : nearest 0 = 0 := by simp [nearest, roundHalfEven]

theorem nearest_bounds (n : Nat) :
    2 * nearest n ≤ 2 * n + 2 ^ droppedBits n ∧ 2 * n ≤ 2 * nearest n + 2 ^ droppedBits n :=
  roundHalfEven_bounds n _ (Nat.two_pow_pos _)

theorem nearest_le {n k : Nat} (h : n < 2 ^ (k + 53)) : nearest n ≤ n + 2 ^ k := by
  have hunit : 2 ^ droppedBits n ≤ 2 ^ k := Nat.pow_le_pow_right (by decide) (droppedBits_le h)
  have hpos : 0 < 2 ^ k := Nat.two_pow_pos k
  have := (nearest_bounds n).1
  omega

theorem le_nearest_of_dvd {m n : Nat} (hm : 2 ^ droppedBits n ∣ m) (h : m ≤ n) : m ≤ nearest n := by
  have hbound := (nearest_bounds n).2
  have hunit : 0 < 2 ^ droppedBits n := Nat.two_pow_pos _
  by_contra hlt
  obtain ⟨j, hj⟩ := dvd_nearest n
  obtain ⟨i, rfl⟩ := hm
  rw [hj] at hbound hlt
  have hji : j + 1 ≤ i := Nat.lt_of_mul_lt_mul_left (Nat.lt_of_not_le hlt)
  have := Nat.mul_le_mul_left (2 ^ droppedBits n) hji
  rw [Nat.mul_add, Nat.mul_one] at this
  omega

theorem le_nearest_of_half {n : Nat} (h : 2 ^ 63 ≤ n + 512) (hn : n < 2 ^ 65) :
    2 ^ 63 ≤ nearest n := by
  by_cases hlt : n < 2 ^ 63
  · have hbits : droppedBits n = 10 := by
      rw [droppedBits, (Nat.log2_eq_iff (by omega)).2 (⟨by omega, hlt⟩ : 2 ^ 62 ≤ n ∧ n < 2 ^ 63)]
    -- The quotient is `2^53 - 1`, an odd number, so a remainder of just half a unit is rounded up.
    simp only [nearest, hbits, roundHalfEven]
    split <;> omega
  · exact le_nearest_of_dvd (two_pow_droppedBits_dvd (k := 12) (by omega) (by omega)) (by omega)

/-- Rounding two integers takes half a unit at most from a sum that is too wide. -/
theorem le_nearest_add_nearest {a b : Nat} (ha : a ≤ 2 ^ 63) (hba : b ≤ a)
    (h : 2 ^ 63 ≤ a + b) : 2 ^ 63 ≤ nearest a + nearest b + 512 := by
  have hbits : droppedBits b ≤ droppedBits a := droppedBits_mono hba
  by_cases hb : 2 ^ 62 ≤ b
  · have hna : 2 ^ 62 ≤ nearest a :=
      le_nearest_of_dvd (two_pow_droppedBits_dvd (k := 11) (by omega) (by omega)) (by omega)
    have hnb : 2 ^ 62 ≤ nearest b :=
      le_nearest_of_dvd (two_pow_droppedBits_dvd (k := 11) (by omega) (by omega)) hb
    omega
  by_cases htop : a = 2 ^ 63
  · have hna : 2 ^ 63 ≤ nearest a :=
      le_nearest_of_dvd (two_pow_droppedBits_dvd (k := 11) (by omega) (by omega)) (by omega)
    omega
  have herror : 2 ^ droppedBits a ≤ 2 ^ 10 :=
    Nat.pow_le_pow_right (by decide) (droppedBits_le (by omega))
  have hna := (nearest_bounds a).2
  by_cases hle : nearest a + 512 ≤ 2 ^ 63
  · -- What is left for `b` to make up is a multiple of the unit of `b`.
    have hunit : 2 ^ droppedBits b ∣ 2 ^ 63 - (nearest a + 512) := by
      refine Nat.dvd_sub (two_pow_droppedBits_dvd (k := 9) (by omega) (by omega))
        (Nat.dvd_add ?_ (two_pow_droppedBits_dvd (k := 9) (j := 9) (by omega) (by omega)))
      exact (Nat.pow_dvd_pow 2 hbits).trans (dvd_nearest a)
    have := le_nearest_of_dvd hunit (by omega)
    omega
  · omega

/-- **A sum that is too wide** stays so when it is taken of doubles. -/
theorem le_nearest_add {a b : Nat} (ha : a ≤ 2 ^ 63) (hb : b ≤ 2 ^ 63) (h : 2 ^ 63 ≤ a + b) :
    2 ^ 63 ≤ nearest (nearest a + nearest b) := by
  have hna : nearest a ≤ a + 2 ^ 11 := nearest_le (by omega)
  have hnb : nearest b ≤ b + 2 ^ 11 := nearest_le (by omega)
  refine le_nearest_of_half ?_ (by omega)
  rcases Nat.le_total b a with hba | hab
  · exact le_nearest_add_nearest ha hba h
  · have := le_nearest_add_nearest hb hab (by omega)
    omega

/-! ## Doubles that are integers -/

def withSign (negative : Bool) (n : Nat) : Int := if negative then -n else n

@[simp] theorem withSign_true (n : Nat) : withSign true n = -n := rfl

@[simp] theorem withSign_false (n : Nat) : withSign false n = n := rfl

theorem withSign_eq_zero_iff {negative : Bool} {n : Nat} : withSign negative n = 0 ↔ n = 0 := by
  cases negative <;> simp

theorem withSign_add (negative : Bool) (m n : Nat) :
    withSign negative (m + n) = withSign negative m + withSign negative n := by
  cases negative <;> simp [Int.add_comm]

theorem withSign_natAbs (i : Int) : withSign (i < 0) i.natAbs = i := by
  by_cases h : i < 0
  · rw [withSign, decide_eq_true h, if_pos rfl]
    omega
  · rw [withSign, decide_eq_false h, if_neg (by decide)]
    omega

theorem equalsInt_zero (negative : Bool) : (zero negative).equalsInt 0 = true := by
  show ((zero negative).numerator == 0 * ((zero negative).denominator : Int)) = true
  rw [Int.zero_mul]
  cases negative <;> rfl

theorem equalsInt_scaledUp (negative : Bool) (m k : Nat) :
    (finite negative m k).equalsInt (withSign negative (m * 2 ^ k)) = true := by
  have hk : (0 : Int) ≤ k := Int.natCast_nonneg k
  cases negative <;> simp [equalsInt, numerator, denominator, withSign, hk]

theorem equalsInt_scaledDown (negative : Bool) (n k : Nat) :
    (finite negative (n * 2 ^ k) (-k)).equalsInt (withSign negative n) = true := by
  rcases Nat.eq_zero_or_pos k with rfl | hk
  · cases negative <;> simp [equalsInt, numerator, denominator, withSign]
  · cases negative <;> simp [equalsInt, numerator, denominator, withSign, hk.ne']

theorem exponentFor_one {n : Nat} (hn : n ≠ 0) : exponentFor n 1 = n.log2 - 52 := by
  have hlow := Nat.log2_self_le hn
  have hlog : Nat.log2 1 = 0 := rfl
  -- With 53 binary digits less, at least the first digit of `n` is left.
  have hquotient : ¬ (scaleDown n 1 (n.log2 - 53)).1 / (scaleDown n 1 (n.log2 - 53)).2
      < Nat.pow 2 53 := by
    unfold scaleDown
    split
    · rw [Nat.not_lt, Nat.le_div_iff_mul_le (by simp), Nat.one_mul]
      refine le_trans (le_of_eq ?_) hlow
      show 2 ^ 53 * 2 ^ _ = _
      rw [← Nat.pow_add]
      congr 1
      omega
    · rw [Nat.not_lt, Nat.div_one]
      refine le_trans (le_of_eq ?_) (Nat.mul_le_mul_right _ hlow)
      show 2 ^ 53 = _ * 2 ^ _
      rw [← Nat.pow_add]
      congr 1
      omega
  have he : ((n.log2 : Int) - (Nat.log2 1 : Nat) - 53) = n.log2 - 53 := by
    rw [hlog]
    omega
  simp only [exponentFor, he]
  rw [if_neg hquotient, minExponent]
  omega

/-- **The double nearest to an integer** is an integer, unless it is out of all range. -/
theorem equalsInt_roundRatio (negative : Bool) {n : Nat} (hn : n < 2 ^ 128) :
    (roundRatio negative n 1).equalsInt (withSign negative (nearest n)) = true := by
  by_cases h0 : n = 0
  · subst h0
    rw [nearest_zero, withSign_eq_zero_iff.2 rfl]
    exact equalsInt_zero negative
  have hlog : n.log2 < 128 := (Nat.log2_lt h0).2 hn
  simp only [roundRatio, h0, if_false, exponentFor_one h0]
  by_cases hbits : 52 ≤ n.log2
  · have he : (n.log2 : Int) - 52 = (droppedBits n : Nat) := by
      rw [droppedBits]
      omega
    have hscale : scaleDown n 1 (droppedBits n : Nat) = (n, 2 ^ droppedBits n) := by
      simp [scaleDown]
    rw [he, hscale]
    dsimp only
    split
    · rename_i hcarry
      have hvalue : nearest n = 2 ^ 52 * 2 ^ (droppedBits n + 1) := by
        rw [nearest, show roundHalfEven n (2 ^ droppedBits n) = 2 ^ 53 from hcarry, Nat.pow_succ]
        omega
      rw [if_neg (by simp only [maxExponent]; omega), hvalue]
      exact equalsInt_scaledUp negative (2 ^ 52) (droppedBits n + 1)
    · rw [if_neg (by simp only [maxExponent]; omega)]
      exact equalsInt_scaledUp negative _ _
  · -- A short integer fills up the significand from below and is exact.
    obtain ⟨k, hk⟩ : ∃ k : Nat, n.log2 + k = 52 := ⟨52 - n.log2, by omega⟩
    have he : (n.log2 : Int) - 52 = -(k : Int) := by omega
    have hvalue : nearest n = n := by
      rw [nearest, show droppedBits n = 0 by rw [droppedBits]; omega, Nat.pow_zero, Nat.mul_one,
        roundHalfEven_one]
    have hscale : scaleDown n 1 (-(k : Int)) = (n * 2 ^ k, 1) := by
      rcases Nat.eq_zero_or_pos k with rfl | hpos
      · simp [scaleDown]
      · simp [scaleDown, hpos.ne']
    have hsmall : n * 2 ^ k ≠ Nat.pow 2 53 := by
      have := Nat.mul_lt_mul_of_pos_right (Nat.lt_log2_self (n := n)) (Nat.two_pow_pos k)
      rw [← Nat.pow_add, show n.log2 + 1 + k = 53 by omega] at this
      exact this.ne
    rw [he, hscale]
    dsimp only
    rw [roundHalfEven_one, if_neg hsmall, if_neg (by simp only [maxExponent]; omega), hvalue]
    exact equalsInt_scaledDown negative n k

theorem equalsInt_ofInt (negative : Bool) {n : Nat} (hn : n < 2 ^ 128) :
    (ofInt (withSign negative n)).equalsInt (withSign negative (nearest n)) = true := by
  by_cases h0 : n = 0
  · subst h0
    rw [nearest_zero, withSign_eq_zero_iff.2 rfl]
    exact equalsInt_zero false
  · have hsign : decide (withSign negative n < 0) = negative := by
      cases negative with
      | false => exact decide_eq_false (show ¬ (n : Int) < 0 by omega)
      | true => exact decide_eq_true (show -(n : Int) < 0 by omega)
    have habs : (withSign negative n).natAbs = n := by
      cases negative <;> simp
    rw [ofInt, ofRatio, hsign, habs]
    exact equalsInt_roundRatio negative hn

theorem equalsInt_iff {x : Binary64} {i : Int} :
    x.equalsInt i = true ↔
      (∃ negative m e, x = finite negative m e) ∧ x.numerator = i * x.denominator := by
  cases x <;> simp [equalsInt]

theorem exists_denominator_eq (x : Binary64) : ∃ j, x.denominator = 2 ^ j := by
  cases x with
  | finite negative m e =>
    by_cases he : 0 ≤ e
    · exact ⟨0, by simp [denominator, he]⟩
    · exact ⟨(-e).toNat, by simp [denominator, he]⟩
  | infinite => exact ⟨0, rfl⟩
  | nan => exact ⟨0, rfl⟩

theorem add_eq_ofInt {x y : Binary64} {a b : Int} (hx : x.equalsInt a = true)
    (hy : y.equalsInt b = true) (h : a + b ≠ 0) : x.add y = ofInt (a + b) := by
  obtain ⟨⟨negx, mx, ex, rfl⟩, hnx⟩ := equalsInt_iff.1 hx
  obtain ⟨⟨negy, my, ey, rfl⟩, hny⟩ := equalsInt_iff.1 hy
  obtain ⟨j, hj⟩ := exists_denominator_eq (finite negx mx ex)
  obtain ⟨k, hk⟩ := exists_denominator_eq (finite negy my ey)
  have hpos : (0 : Int) < 2 ^ (j + k) := by positivity
  have hsum : (finite negx mx ex).numerator * (finite negy my ey).denominator
      + (finite negy my ey).numerator * (finite negx mx ex).denominator = (a + b) * 2 ^ (j + k) := by
    rw [hnx, hny, hj, hk]
    push_cast
    ring
  have hden : (finite negx mx ex).denominator * (finite negy my ey).denominator
      = 1 * 2 ^ (j + k) := by
    rw [hj, hk, Nat.one_mul, Nat.pow_add]
  have hsign : decide ((a + b) * 2 ^ (j + k) < 0) = decide (a + b < 0) :=
    decide_eq_decide.2
      ⟨fun h => neg_of_mul_neg_left h hpos.le, fun h => mul_neg_of_neg_of_pos h hpos⟩
  have habs : ((a + b) * 2 ^ (j + k)).natAbs = (a + b).natAbs * 2 ^ (j + k) := by
    rw [Int.natAbs_mul, Int.natAbs_pow]
    rfl
  show (if _ = 0 then _ else ofRatio _ _) = _
  rw [hsum, hden, if_neg (mul_ne_zero h hpos.ne'), ofRatio, hsign, habs,
    roundRatio_mul_two_pow _ _ one_ne_zero]
  rfl

end Binary64

/-! ## Cells -/

namespace Cell

theorem compareIntReal_eq {x : Binary64} {i : Int} (hx : x.equalsInt i = true) (k : Int) :
    compareIntReal k x = Ord.compare k i := by
  obtain ⟨⟨negative, m, e, rfl⟩, hnum⟩ := Binary64.equalsInt_iff.1 hx
  have hden : (0 : Int) < (Binary64.finite negative m e).denominator :=
    Int.natCast_pos.2 (Binary64.denominator_pos _)
  show Ord.compare (k * _) _ = _
  rw [hnum]
  rcases lt_trichotomy k i with h | rfl | h
  · rw [Int.compare_eq_lt.2 h, Int.compare_eq_lt.2 (Int.mul_lt_mul_of_pos_right h hden)]
  · rw [Int.compare_eq_eq.2 rfl, Int.compare_eq_eq.2 rfl]
  · rw [Int.compare_eq_gt.2 h, Int.compare_eq_gt.2 (Int.mul_lt_mul_of_pos_right h hden)]

theorem ofDouble_eq {x : Binary64} {i : Int} (hx : x.equalsInt i = true) : ofDouble x = .real x := by
  obtain ⟨⟨negative, m, e, rfl⟩, -⟩ := Binary64.equalsInt_iff.1 hx
  rfl

theorem fits_iff {i : Int} : fits i = true ↔ -2 ^ 63 ≤ i ∧ i < 2 ^ 63 := by
  rw [fits, Bool.and_eq_true, decide_eq_true_iff, decide_eq_true_iff, minInt, maxInt]
  show -(2 ^ 63) ≤ i ∧ i ≤ 2 ^ 63 - 1 ↔ _
  omega

open Binary64 (withSign nearest) in
/-- The double sum of two integers whose sum is too wide is too wide on the same side. -/
theorem exists_wide_sum {i j : Int} (hi : fits i = true) (hj : fits j = true)
    (h : fits (i + j) = false) :
    ∃ s : Int, ((Binary64.ofInt i).add (.ofInt j)).equalsInt s = true ∧
      (2 ^ 63 ≤ i + j ∧ 2 ^ 63 ≤ s ∨ i + j < -2 ^ 63 ∧ s ≤ -2 ^ 63) := by
  rw [fits_iff] at hi hj
  have hwide : 2 ^ 63 ≤ i + j ∨ i + j < -2 ^ 63 := by
    have := mt fits_iff.2 (Bool.not_eq_true _ ▸ h)
    omega
  -- Both integers have the sign of their sum.
  obtain ⟨negative, a, b, ha, hb, rfl, rfl⟩ : ∃ negative a b, a ≤ 2 ^ 63 ∧ b ≤ 2 ^ 63 ∧
      withSign negative a = i ∧ withSign negative b = j := by
    refine ⟨decide (i < 0), i.natAbs, j.natAbs, by omega, by omega, Binary64.withSign_natAbs i, ?_⟩
    rw [decide_eq_decide.2 (show i < 0 ↔ j < 0 by omega)]
    exact Binary64.withSign_natAbs j
  have hab : 2 ^ 63 ≤ a + b := by
    cases negative <;> simp only [Binary64.withSign_true, Binary64.withSign_false] at hwide <;> omega
  have hnear : 2 ^ 63 ≤ nearest (nearest a + nearest b) := Binary64.le_nearest_add ha hb hab
  have hna : nearest a ≤ a + 2 ^ 11 := Binary64.nearest_le (by omega)
  have hnb : nearest b ≤ b + 2 ^ 11 := Binary64.nearest_le (by omega)
  have hsum := Binary64.add_eq_ofInt (Binary64.equalsInt_ofInt negative (n := a) (by omega))
    (Binary64.equalsInt_ofInt negative (n := b) (by omega))
  rw [← Binary64.withSign_add] at hsum
  have hne : withSign negative (nearest a + nearest b) ≠ 0 := by
    intro h0
    rw [Binary64.withSign_eq_zero_iff.1 h0, Binary64.nearest_zero] at hnear
    omega
  refine ⟨withSign negative (nearest (nearest a + nearest b)), ?_, ?_⟩
  · rw [hsum hne]
    exact Binary64.equalsInt_ofInt negative (by omega)
  · cases negative <;> simp only [Binary64.withSign_true, Binary64.withSign_false] at hwide ⊢ <;>
      omega

/-- **A cell is exceeded by a sum** of two others exactly if the exact sum exceeds it. Of the other
comparisons this is not true: a sum just below `-2^63` is rounded to it. -/
theorem compare_add_eq_gt_iff {i j n : Int} (hi : fits i = true) (hj : fits j = true)
    (hn : fits n = true) : ((Cell.int i).add (.int j)).compare (.int n) = .gt ↔ n < i + j := by
  rw [fits_iff] at hn
  show (if _ then _ else _ : Cell).compare _ = _ ↔ _
  cases h : fits (i + j) with
  | true =>
    rw [if_pos rfl]
    exact Int.compare_eq_gt
  | false =>
    obtain ⟨s, hs, hside⟩ := exists_wide_sum hi hj h
    rw [if_neg (by simp), ofDouble_eq hs]
    show (compareIntReal n _).swap = .gt ↔ _
    rw [compareIntReal_eq hs, Ordering.swap_eq_gt, Int.compare_eq_lt]
    omega

end Cell

end EventCalendar
