import EventCalendar.Decimal.Binary64
import Mathlib.Algebra.Order.Field.Power
import Mathlib.Algebra.Order.Floor.Ring
import Mathlib.Data.Rat.Floor
import Mathlib.Tactic.FieldSimp
import Mathlib.Tactic.Linarith
import Mathlib.Tactic.LinearCombination
import Mathlib.Tactic.Positivity
import Mathlib.Tactic.Ring

/-!
# The nearest double

Doubles as rational numbers, and what it means that one of them is nearest to a number:

* `Binary64.IsNearest`: no double is nearer, and of two that are equally near the one with the even
  significand is taken.
* `isNearest_ofRatio`: **rounding a fraction** yields the nearest double, unless it is out of range.
* `IsNearest.le_value`, `IsNearest.mono`: rounding steps over no double and keeps the order.
* `exists_isDouble_int`: the integers up to `2^53` are doubles.
* `truncate_of_nonneg`, `truncate_of_nonpos`: dropping the fraction goes toward zero, and
  `truncate_mono`: it keeps the order.
-/

set_option autoImplicit false

namespace EventCalendar.Binary64

/-- The number that a finite double is. -/
def value (x : Binary64) : ℚ := x.numerator / x.denominator

/-- A finite double in its one form: a significand of 53 bits, or of less at the least exponent. -/
def IsDouble : Binary64 → Prop
  | finite _ m e => m < 2 ^ 53 ∧ minExponent ≤ e ∧ e ≤ maxExponent ∧ (2 ^ 52 ≤ m ∨ e = minExponent)
  | _ => False

def IsEven : Binary64 → Prop
  | finite _ m _ => m % 2 = 0
  | _ => False

/-- `x` is the double nearest to `v`; of two that are equally near, it is the even one. -/
structure IsNearest (x : Binary64) (v : ℚ) : Prop where
  isDouble : x.IsDouble
  nearest : ∀ y : Binary64, y.IsDouble → |x.value - v| ≤ |y.value - v|
  even : ∀ y : Binary64, y.IsDouble → y.value ≠ x.value → |y.value - v| = |x.value - v| → x.IsEven

/-! ## Values -/

theorem value_finite (negative : Bool) (m : Nat) (e : Int) :
    (finite negative m e).value = (if negative then -1 else 1) * (m * 2 ^ e) := by
  by_cases he : 0 ≤ e
  · obtain ⟨k, rfl⟩ := Int.eq_ofNat_of_zero_le he
    cases negative <;> simp [value, numerator, denominator]
  · obtain ⟨k, rfl⟩ : ∃ k : Nat, e = -k := ⟨(-e).toNat, by omega⟩
    have hk : k ≠ 0 := by omega
    cases negative <;> simp [value, numerator, denominator, hk, div_eq_mul_inv]

theorem value_zero (negative : Bool) : (zero negative).value = 0 := by
  rw [zero, value_finite, Nat.cast_zero, zero_mul, mul_zero]

theorem value_negate (x : Binary64) : x.negate.value = -x.value := by
  cases x with
  | finite negative m e =>
    rw [negate, value_finite, value_finite]
    cases negative <;> simp
  | infinite => simp [negate, value, numerator]
  | nan => simp [negate, value, numerator]

theorem isDouble_negate {x : Binary64} : x.negate.IsDouble ↔ x.IsDouble := by
  cases x <;> exact Iff.rfl

theorem isEven_negate {x : Binary64} : x.negate.IsEven ↔ x.IsEven := by
  cases x <;> exact Iff.rfl

theorem isDouble_zero (negative : Bool) : (zero negative).IsDouble :=
  ⟨by decide, by decide, by decide, .inr rfl⟩

/-- Every number of 53 bits within the range of exponents is a double. -/
theorem exists_isDouble {m : Nat} (hm : m < 2 ^ 53) (negative : Bool) {e : Int}
    (he : minExponent ≤ e) (he' : e ≤ maxExponent) :
    ∃ x : Binary64, x.IsDouble ∧ x.value = (if negative then -1 else 1) * (m * 2 ^ e) := by
  obtain ⟨k, rfl⟩ : ∃ k : Nat, e = minExponent + k := ⟨(e - minExponent).toNat, by omega⟩
  -- A short significand moves up bit by bit, until it has 53 bits or the exponent is least.
  induction k generalizing m with
  | zero => exact ⟨finite negative m _, ⟨hm, he, he', .inr (by simp)⟩, value_finite _ _ _⟩
  | succ k ih =>
    by_cases hfull : 2 ^ 52 ≤ m
    · exact ⟨finite negative m _, ⟨hm, he, he', .inl hfull⟩, value_finite _ _ _⟩
    · obtain ⟨x, hx, hvalue⟩ := ih (m := 2 * m) (by omega) (by omega) (by omega)
      refine ⟨x, hx, hvalue.trans ?_⟩
      rw [Nat.cast_add_one, ← add_assoc, zpow_add_one₀ two_ne_zero]
      push_cast
      ring

theorem exists_isDouble_int {n : Int} (hn : n.natAbs ≤ 2 ^ 53) :
    ∃ x : Binary64, x.IsDouble ∧ x.value = n := by
  have hsign : (n : ℚ) = (if decide (n < 0) then -1 else 1) * n.natAbs := by
    by_cases h : n < 0
    · rw [decide_eq_true h, if_pos rfl, neg_one_mul, Nat.cast_natAbs, abs_of_neg h, Int.cast_neg,
        neg_neg]
    · rw [decide_eq_false h, if_neg (by decide), one_mul, Nat.cast_natAbs,
        abs_of_nonneg (by omega)]
  by_cases hfull : n.natAbs = 2 ^ 53
  · obtain ⟨x, hx, hvalue⟩ := exists_isDouble (m := 2 ^ 52) (by decide) (n < 0) (e := 1)
      (by decide) (by decide)
    refine ⟨x, hx, hvalue.trans ?_⟩
    rw [hsign, hfull]
    norm_num
  · obtain ⟨x, hx, hvalue⟩ := exists_isDouble (m := n.natAbs) (by omega) (n < 0) (e := 0)
      (by decide) (by decide)
    exact ⟨x, hx, by rw [hvalue, hsign, zpow_zero, mul_one]⟩

/-! ## The nearest double and the order -/

namespace IsNearest

variable {x y : Binary64} {v w : ℚ}

theorem negate (h : x.IsNearest v) : x.negate.IsNearest (-v) := by
  have habs : ∀ z : Binary64, |z.value - -v| = |z.negate.value - v| := by
    intro z
    rw [value_negate, ← abs_neg]
    congr 1
    ring
  have hx : x.negate.negate = x := by cases x <;> simp [Binary64.negate]
  refine ⟨isDouble_negate.2 h.isDouble, fun z hz => ?_, fun z hz hne heq => ?_⟩
  · rw [habs, habs, hx]
    exact h.nearest _ (isDouble_negate.2 hz)
  · rw [habs, habs, hx] at heq
    refine isEven_negate.2 (h.even _ (isDouble_negate.2 hz) (fun h' => hne ?_) heq)
    rw [value_negate, ← h', value_negate, neg_neg]

theorem le_value (h : x.IsNearest v) (hy : y.IsDouble) (hle : y.value ≤ v) :
    y.value ≤ x.value := by
  have hnear := h.nearest y hy
  rw [abs_of_nonpos (sub_nonpos.2 hle)] at hnear
  have := neg_le_of_abs_le hnear
  linarith

theorem value_le (h : x.IsNearest v) (hy : y.IsDouble) (hle : v ≤ y.value) :
    x.value ≤ y.value := by
  have hnear := h.nearest y hy
  rw [abs_of_nonneg (sub_nonneg.2 hle)] at hnear
  have := le_of_abs_le hnear
  linarith

theorem value_eq (h : x.IsNearest y.value) (hy : y.IsDouble) : x.value = y.value :=
  le_antisymm (h.value_le hy le_rfl) (h.le_value hy le_rfl)

theorem mono (hx : x.IsNearest v) (hy : y.IsNearest w) (h : v < w) : x.value ≤ y.value := by
  by_contra hlt
  rw [not_le] at hlt
  -- Otherwise `v` is not below the middle of the two doubles, and `w` not above it.
  have hv := hx.nearest y hy.isDouble
  have hw := hy.nearest x hx.isDouble
  have hv' : x.value + y.value ≤ 2 * v := by
    by_contra hmid
    rw [abs_of_nonneg (by linarith : 0 ≤ x.value - v)] at hv
    rcases abs_cases (y.value - v) with ⟨habs, -⟩ | ⟨habs, -⟩ <;> linarith
  have hw' : 2 * w ≤ x.value + y.value := by
    by_contra hmid
    rw [abs_of_nonpos (by linarith : y.value - w ≤ 0)] at hw
    rcases abs_cases (x.value - w) with ⟨habs, -⟩ | ⟨habs, -⟩ <;> linarith
  linarith

end IsNearest

/-! ## Rounding a fraction -/

theorem scaleDown_pos {n d : Nat} (hd : 0 < d) (e : Int) : 0 < (scaleDown n d e).2 := by
  unfold scaleDown
  split
  · exact Nat.mul_pos hd (Nat.two_pow_pos _)
  · exact hd

theorem scaleDown_div (n d : Nat) (e : Int) :
    ((scaleDown n d e).1 : ℚ) / (scaleDown n d e).2 = n / d / 2 ^ e := by
  unfold scaleDown
  split
  · rename_i he
    obtain ⟨k, rfl⟩ := Int.eq_ofNat_of_zero_le he
    simp [div_div]
  · rename_i he
    obtain ⟨k, rfl⟩ : ∃ k : Nat, e = -k := ⟨(-e).toNat, by omega⟩
    simp [div_eq_mul_inv]
    ring

theorem abs_roundHalfEven_sub_le {n d : Nat} (hd : 0 < d) :
    |(roundHalfEven n d : ℚ) - n / d| ≤ 1 / 2 := by
  obtain ⟨hle, hge⟩ := roundHalfEven_bounds n d hd
  have hdq : (0 : ℚ) < d := by exact_mod_cast hd
  have hle' : 2 * ((roundHalfEven n d : ℚ) * d) ≤ 2 * n + d := by exact_mod_cast hle
  have hge' : 2 * (n : ℚ) ≤ 2 * (roundHalfEven n d * d) + d := by exact_mod_cast hge
  have hn : (n : ℚ) = n / d * d := (div_mul_cancel₀ _ hdq.ne').symm
  rw [hn] at hle' hge'
  rw [abs_le]
  constructor
  · nlinarith
  · nlinarith

theorem roundHalfEven_even {n d : Nat} (hd : 0 < d)
    (h : |(roundHalfEven n d : ℚ) - n / d| = 1 / 2) : roundHalfEven n d % 2 = 0 := by
  have hdq : (0 : ℚ) < d := by exact_mod_cast hd
  have hn : (n : ℚ) / d * d = n := div_mul_cancel₀ _ hdq.ne'
  have hdiv : d * (n / d) + n % d = n := Nat.div_add_mod n d
  have hlt : n % d < d := Nat.mod_lt n hd
  have hcases : 2 * (roundHalfEven n d * d) = 2 * n + d ∨
      2 * n = 2 * (roundHalfEven n d * d) + d := by
    rcases (abs_eq (by norm_num)).1 h with h | h
    · left
      have : 2 * ((roundHalfEven n d : ℚ) * d) = 2 * n + d := by
        rw [sub_eq_iff_eq_add.1 h]
        linear_combination 2 * hn
      exact_mod_cast this
    · right
      have : 2 * (n : ℚ) = 2 * (roundHalfEven n d * d) + d := by
        rw [sub_eq_iff_eq_add.1 h]
        linear_combination -2 * hn
      exact_mod_cast this
  revert hcases
  simp only [roundHalfEven]
  split
  · rename_i hup
    have hmul : (n / d + 1) * d = d * (n / d) + d := by rw [Nat.add_mul, Nat.mul_comm, Nat.one_mul]
    intro hcases
    omega
  · rename_i hdown
    have hmul : n / d * d = d * (n / d) := Nat.mul_comm _ _
    intro hcases
    omega

/-- No integer is nearer than the rounded one, and one that is as near shows that it is even. -/
theorem roundHalfEven_nearest {n d : Nat} (hd : 0 < d) (k : Int) :
    |(roundHalfEven n d : ℚ) - n / d| ≤ |(k : ℚ) - n / d| ∧
      (k ≠ roundHalfEven n d → |(k : ℚ) - n / d| = |(roundHalfEven n d : ℚ) - n / d| →
        roundHalfEven n d % 2 = 0) := by
  have hhalf := abs_roundHalfEven_sub_le (n := n) hd
  by_cases hk : k = roundHalfEven n d
  · subst hk
    exact ⟨le_rfl, fun h => absurd rfl h⟩
  · have hdist : (1 : ℚ) ≤ |(k : ℚ) - roundHalfEven n d| := by
      have : 1 ≤ |k - roundHalfEven n d| := Int.one_le_abs (sub_ne_zero.2 hk)
      exact_mod_cast this
    have htriangle : |(k : ℚ) - roundHalfEven n d|
        ≤ |(k : ℚ) - n / d| + |(roundHalfEven n d : ℚ) - n / d| := by
      rw [abs_sub_comm (roundHalfEven n d : ℚ)]
      exact abs_sub_le _ _ _
    exact ⟨by linarith, fun _ heq => roundHalfEven_even hd (by linarith)⟩

section
variable {m j : Nat} {v : ℚ} (h : ∀ k : Int, |(m : ℚ) - v| ≤ |(k : ℚ) - v|)
include h

theorem rounded_le (hv : v ≤ j) : m ≤ j := by
  by_contra hlt
  have hlt' : (j : ℚ) < m := by exact_mod_cast not_le.1 hlt
  have hj := h j
  rw [Int.cast_natCast, abs_of_nonneg (by linarith), abs_of_nonneg (by linarith)] at hj
  linarith

theorem le_rounded (hv : j ≤ v) : j ≤ m := by
  by_contra hlt
  have hlt' : (m : ℚ) < j := by exact_mod_cast not_le.1 hlt
  have hj := h j
  rw [Int.cast_natCast, abs_of_nonpos (by linarith), abs_of_nonpos (by linarith)] at hj
  linarith

end

theorem quotient_bounds {n d : Nat} (hn : n ≠ 0) (hd : 0 < d) {e : Int}
    (he : e = (n.log2 : Int) - (d.log2 : Int) - 53) :
    2 ^ 52 * (2 : ℚ) ^ e ≤ n / d ∧ (n : ℚ) / d < 2 ^ 54 * 2 ^ e := by
  have hdq : (0 : ℚ) < d := by exact_mod_cast hd
  have hpow : ∀ k : Nat, (2 : ℚ) ^ k * 2 ^ e = 2 ^ ((k : Int) + e) := by
    intro k
    rw [zpow_add₀ two_ne_zero, zpow_natCast]
  constructor
  · have hn' : (2 : ℚ) ^ n.log2 ≤ n := by exact_mod_cast Nat.log2_self_le hn
    have hd' : (d : ℚ) ≤ 2 ^ (d.log2 + 1) := by exact_mod_cast Nat.lt_log2_self.le
    rw [le_div_iff₀ hdq]
    refine (mul_le_mul_of_nonneg_left hd' (by positivity)).trans (le_trans (le_of_eq ?_) hn')
    rw [hpow, he, ← zpow_natCast, ← zpow_natCast, ← zpow_add₀ two_ne_zero]
    congr 1
    push_cast
    omega
  · have hn' : (n : ℚ) < 2 ^ (n.log2 + 1) := by exact_mod_cast Nat.lt_log2_self
    have hd' : (2 : ℚ) ^ d.log2 ≤ d := by exact_mod_cast Nat.log2_self_le hd.ne'
    rw [div_lt_iff₀ hdq]
    refine hn'.trans_le (le_trans (le_of_eq ?_) (mul_le_mul_of_nonneg_left hd' (by positivity)))
    rw [hpow, he, ← zpow_natCast, ← zpow_natCast, ← zpow_add₀ two_ne_zero]
    congr 1
    push_cast
    omega

theorem scaleDown_lt_iff {n d : Nat} (hd : 0 < d) (e : Int) :
    (scaleDown n d e).1 / (scaleDown n d e).2 < Nat.pow 2 53 ↔
      (n : ℚ) / d < 2 ^ 53 * 2 ^ e := by
  have hs : (0 : ℚ) < (scaleDown n d e).2 := by exact_mod_cast scaleDown_pos hd e
  rw [Nat.pow_eq, Nat.div_lt_iff_lt_mul (scaleDown_pos hd e), ← div_lt_iff₀ (by positivity),
    ← scaleDown_div, div_lt_iff₀ hs]
  exact_mod_cast Iff.rfl

/-- **The exponent of a fraction** leaves its significand 53 bits, or is the least one. -/
theorem exponentFor_spec {n d : Nat} (hn : n ≠ 0) (hd : 0 < d) :
    minExponent ≤ exponentFor n d ∧ (n : ℚ) / d < 2 ^ 53 * 2 ^ exponentFor n d ∧
      (2 ^ 52 * 2 ^ exponentFor n d ≤ (n : ℚ) / d ∨ exponentFor n d = minExponent) := by
  obtain ⟨e, he⟩ : ∃ e : Int, e = (n.log2 : Int) - (d.log2 : Int) - 53 := ⟨_, rfl⟩
  obtain ⟨hlow, hhigh⟩ := quotient_bounds hn hd he
  -- The exponent for which the significand has 53 bits, whether or not it is one of a double.
  obtain ⟨e', he', hexp, hbits⟩ : ∃ e' : Int, exponentFor n d = max minExponent e' ∧
      (n : ℚ) / d < 2 ^ 53 * 2 ^ e' ∧ 2 ^ 52 * 2 ^ e' ≤ (n : ℚ) / d := by
    by_cases hlt : (n : ℚ) / d < 2 ^ 53 * 2 ^ e
    · refine ⟨e, ?_, hlt, hlow⟩
      simp only [exponentFor, ← he]
      rw [if_pos ((scaleDown_lt_iff hd e).2 hlt)]
    · refine ⟨e + 1, ?_, ?_, ?_⟩
      · simp only [exponentFor, ← he]
        rw [if_neg (mt (scaleDown_lt_iff hd e).1 hlt)]
      · rw [zpow_add_one₀ two_ne_zero]
        linarith
      · rw [zpow_add_one₀ two_ne_zero]
        linarith
  rw [he']
  rcases le_total minExponent e' with h | h
  · rw [max_eq_right h]
    exact ⟨h, hexp, .inl hbits⟩
  · rw [max_eq_left h]
    exact ⟨le_rfl, hexp.trans_le (mul_le_mul_of_nonneg_left
      (zpow_le_zpow_right₀ one_le_two h) (by positivity)), .inr rfl⟩

/-- On the grid of the multiples of `2^e`, all doubles stand but those below `2^52` such units. -/
theorem IsDouble.on_grid {y : Binary64} (hy : y.IsDouble) (e : Int) :
    (∃ k : Int, y.value = k * 2 ^ e) ∨ y.value < 2 ^ 52 * 2 ^ e ∧ e ≠ minExponent := by
  cases y with
  | finite negative m e' =>
    obtain ⟨hm, hmin, -, -⟩ := hy
    rw [value_finite]
    rcases le_or_gt e e' with he | he
    · obtain ⟨j, rfl⟩ : ∃ j : Nat, e' = e + j := ⟨(e' - e).toNat, by omega⟩
      refine .inl ⟨(if negative then -1 else 1) * (m * 2 ^ j), ?_⟩
      rw [zpow_add₀ two_ne_zero, zpow_natCast]
      cases negative <;> push_cast <;> ring
    · refine .inr ⟨?_, by omega⟩
      have hunit : (2 : ℚ) ^ e' * 2 ≤ 2 ^ e := by
        rw [← zpow_add_one₀ two_ne_zero]
        exact zpow_le_zpow_right₀ one_le_two (by omega)
      have hm' : (m : ℚ) < 2 ^ 53 := by exact_mod_cast hm
      have hpos : (0 : ℚ) < 2 ^ e' := by positivity
      have hsign : (if negative then (-1 : ℚ) else 1) * (m * 2 ^ e') ≤ m * 2 ^ e' := by
        have : (0 : ℚ) ≤ m * 2 ^ e' := by positivity
        cases negative
        · simp
        · simp only [if_true]
          linarith
      have := mul_lt_mul_of_pos_right hm' hpos
      linarith
  | infinite => exact hy.elim
  | nan => exact hy.elim

/-- A double with a significand that rounding may have carried over to `2^53`. -/
def carried (m : Nat) (e : Int) : Binary64 :=
  if m = 2 ^ 53 then finite false (2 ^ 52) (e + 1) else finite false m e

theorem carried_spec {m : Nat} {e : Int} (hm : m ≤ 2 ^ 53) (hmin : minExponent ≤ e)
    (hmax : e < maxExponent) (hbits : 2 ^ 52 ≤ m ∨ e = minExponent) :
    (carried m e).IsDouble ∧ (carried m e).value = m * 2 ^ e ∧
      (m % 2 = 0 → (carried m e).IsEven) := by
  unfold carried
  split
  · rename_i hcarry
    refine ⟨⟨by decide, by omega, by omega, .inl le_rfl⟩, ?_, fun _ => by norm_num [IsEven]⟩
    rw [value_finite, hcarry, zpow_add_one₀ two_ne_zero]
    norm_num
    ring
  · rename_i hcarry
    refine ⟨⟨by omega, hmin, by omega, hbits⟩, ?_, id⟩
    rw [value_finite]
    norm_num

theorem roundRatio_eq_carried {n d : Nat} (h0 : n ≠ 0) (hmax : exponentFor n d < maxExponent) :
    roundRatio false n d = carried (roundHalfEven (scaleDown n d (exponentFor n d)).1
      (scaleDown n d (exponentFor n d)).2) (exponentFor n d) := by
  simp only [roundRatio, h0, if_false, carried]
  by_cases hcarry : roundHalfEven (scaleDown n d (exponentFor n d)).1
      (scaleDown n d (exponentFor n d)).2 = 2 ^ 53
  · simp only [hcarry, Nat.pow_eq, if_true]
    rw [if_neg (by omega)]
  · simp only [hcarry, Nat.pow_eq, if_false]
    rw [if_neg (by omega)]

/-- What rounding a fraction comes to: the nearest multiple of a power of two, of which the
significand takes 53 digits. -/
theorem exists_roundRatio {n d : Nat} (h0 : n ≠ 0) (hd : 0 < d) (hn : n < d * 2 ^ 1023) :
    ∃ (e : Int) (m : Nat), (roundRatio false n d).IsDouble ∧
      (roundRatio false n d).value = m * 2 ^ e ∧ (m % 2 = 0 → (roundRatio false n d).IsEven) ∧
      (2 ^ 52 * 2 ^ e ≤ (n : ℚ) / d ∨ e = minExponent) ∧
      ∀ k : Int, |(m : ℚ) - n / d / 2 ^ e| ≤ |(k : ℚ) - n / d / 2 ^ e| ∧
        (k ≠ m → |(k : ℚ) - n / d / 2 ^ e| = |(m : ℚ) - n / d / 2 ^ e| → m % 2 = 0) := by
  obtain ⟨hmin, hlt, hbits⟩ := exponentFor_spec h0 hd
  have heq := roundRatio_eq_carried (n := n) (d := d) h0
  generalize exponentFor n d = e at *
  have hnearest := roundHalfEven_nearest (n := (scaleDown n d e).1) (scaleDown_pos (n := n) hd e)
  simp only [scaleDown_div] at hnearest
  generalize roundHalfEven (scaleDown n d e).1 (scaleDown n d e).2 = m at *
  have hunit : (0 : ℚ) < 2 ^ e := by positivity
  have hupper : m ≤ 2 ^ 53 := rounded_le (fun k => (hnearest k).1) (by
    exact_mod_cast ((div_lt_iff₀ hunit).2 hlt).le)
  have hlower : 2 ^ 52 ≤ m ∨ e = minExponent := hbits.imp_left fun hge =>
    le_rounded (fun k => (hnearest k).1) (by exact_mod_cast (le_div_iff₀ hunit).2 hge)
  have hmax : e < maxExponent := by
    rcases hbits with hge | rfl
    · have hbound : (n : ℚ) / d < 2 ^ 1023 := by
        rw [div_lt_iff₀ (by exact_mod_cast hd), mul_comm]
        exact_mod_cast hn
      have hexp : (2 : ℚ) ^ (52 + e) < 2 ^ (1023 : Int) := by
        rw [zpow_add₀ two_ne_zero]
        exact_mod_cast hge.trans_lt hbound
      have := (zpow_lt_zpow_iff_right₀ one_lt_two).1 hexp
      rw [maxExponent]
      omega
    · decide
  obtain ⟨hdouble, hvalue, heven⟩ := carried_spec hupper hmin hmax hlower
  rw [heq hmax]
  exact ⟨e, m, hdouble, hvalue, heven, hbits, hnearest⟩

/-- **Rounding a fraction** yields the nearest double. -/
theorem isNearest_roundRatio {n d : Nat} (hd : 0 < d) (hn : n < d * 2 ^ 1023) :
    (roundRatio false n d).IsNearest (n / d) := by
  by_cases h0 : n = 0
  · subst h0
    have hvalue : (roundRatio false 0 d).value = 0 := value_zero false
    refine ⟨isDouble_zero false, fun y _ => ?_, fun y _ hne heq => ?_⟩
    · simp [hvalue]
    · rw [hvalue, Nat.cast_zero, zero_div, sub_zero, sub_zero, abs_zero, abs_eq_zero] at heq
      exact absurd (heq.trans hvalue.symm) hne
  obtain ⟨e, m, hdouble, hvalue, heven, hbits, hnearest⟩ := exists_roundRatio h0 hd hn
  generalize roundRatio false n d = x at *
  generalize (n : ℚ) / d = v at *
  have hunit : (0 : ℚ) < 2 ^ e := by positivity
  have hscale : ∀ k : ℚ, |k * 2 ^ e - v| = |k - v / 2 ^ e| * 2 ^ e := by
    intro k
    rw [← abs_of_pos hunit, ← abs_mul, abs_of_pos hunit, sub_mul, div_mul_cancel₀ _ hunit.ne']
  -- A double below the grid is farther away than the first 53-bit number on it.
  have hbelow : ∀ y : Binary64, y.value < 2 ^ 52 * 2 ^ e ∧ e ≠ minExponent →
      |x.value - v| < |y.value - v| := by
    intro y hy
    have hge := hbits.resolve_right hy.2
    have h52 := mul_le_mul_of_nonneg_right (hnearest (2 ^ 52)).1 hunit.le
    rw [Int.cast_pow, Int.cast_ofNat, ← hscale, ← hscale, ← hvalue,
      abs_of_nonpos (sub_nonpos.2 hge)] at h52
    refine h52.trans_lt ?_
    rw [abs_of_nonpos (by linarith)]
    linarith
  refine ⟨hdouble, fun y hy => ?_, fun y hy hne heq => ?_⟩
  · rcases hy.on_grid e with ⟨k, hk⟩ | hy'
    · rw [hvalue, hk, hscale, hscale]
      exact mul_le_mul_of_nonneg_right (hnearest k).1 hunit.le
    · exact (hbelow y hy').le
  · rcases hy.on_grid e with ⟨k, hk⟩ | hy'
    · rw [hvalue, hk, hscale, hscale, mul_left_inj' hunit.ne'] at heq
      refine heven ((hnearest k).2 (fun h => hne ?_) heq)
      rw [hvalue, hk, h, Int.cast_natCast]
    · exact absurd heq (hbelow y hy').ne'

theorem roundRatio_true (n d : Nat) : roundRatio true n d = (roundRatio false n d).negate := by
  simp only [roundRatio]
  repeat' split
  all_goals rfl

theorem isNearest_ofRatio {n : Int} {d : Nat} (hd : 0 < d) (hn : n.natAbs < d * 2 ^ 1023) :
    (ofRatio n d).IsNearest (n / d) := by
  have h := isNearest_roundRatio hd hn
  rw [Nat.cast_natAbs] at h
  by_cases hneg : n < 0
  · rw [abs_of_neg hneg] at h
    rw [ofRatio, decide_eq_true hneg, roundRatio_true]
    convert h.negate using 1
    push_cast
    ring
  · rw [abs_of_nonneg (by omega)] at h
    rwa [ofRatio, decide_eq_false hneg]

/-! ## Dropping the fraction -/

theorem truncate_of_nonneg {x : Binary64} (h : 0 ≤ x.value) : x.truncate = ⌊x.value⌋ := by
  have hd : (0 : ℚ) < x.denominator := by exact_mod_cast x.denominator_pos
  have hn : 0 ≤ x.numerator := by
    rw [value, le_div_iff₀ hd, zero_mul] at h
    exact_mod_cast h
  rw [truncate, value, Int.tdiv_eq_ediv_of_nonneg hn, Rat.floor_intCast_div_natCast]

theorem truncate_negate (x : Binary64) : x.negate.truncate = -x.truncate := by
  have hnum : x.negate.numerator = -x.numerator := by
    cases x with
    | finite negative m e => cases negative <;> simp [negate, numerator]
    | _ => rfl
  have hden : x.negate.denominator = x.denominator := by cases x <;> rfl
  rw [truncate, truncate, hnum, hden, Int.neg_tdiv]

theorem truncate_ofRatio_neg (n : Int) (d : Nat) :
    (ofRatio (-n) d).truncate = -(ofRatio n d).truncate := by
  rw [ofRatio, ofRatio, Int.natAbs_neg, ← truncate_negate]
  rcases lt_trichotomy n 0 with h | rfl | h
  · rw [decide_eq_true h, decide_eq_false (by omega), roundRatio_true]
    cases roundRatio false n.natAbs d <;> simp [negate]
  · rfl
  · rw [decide_eq_false (by omega : ¬ n < 0), decide_eq_true (by omega), roundRatio_true]

theorem truncate_of_nonpos {x : Binary64} (h : x.value ≤ 0) : x.truncate = ⌈x.value⌉ := by
  have hneg := truncate_of_nonneg (x := x.negate) (by rw [value_negate]; linarith)
  rw [truncate_negate, value_negate, Int.floor_neg] at hneg
  exact neg_inj.1 hneg

theorem truncate_mono {x y : Binary64} (h : x.value ≤ y.value) : x.truncate ≤ y.truncate := by
  rcases le_total 0 x.value with hx | hx
  · rw [truncate_of_nonneg hx, truncate_of_nonneg (hx.trans h)]
    exact Int.floor_mono h
  · rcases le_total 0 y.value with hy | hy
    · rw [truncate_of_nonpos hx, truncate_of_nonneg hy]
      exact (Int.ceil_nonpos.2 hx).trans (Int.floor_nonneg.2 hy)
    · rw [truncate_of_nonpos hx, truncate_of_nonpos hy]
      exact Int.ceil_mono h

end EventCalendar.Binary64
