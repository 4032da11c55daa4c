import EventCalendar.Proofs.CalendarDate
import EventCalendar.Proofs.NearestDouble
import EventCalendar.Time.Moment

/-!
# Whole seconds of an instant

An instant is rounded to a double before its fraction is dropped, so two roundings meet:

* `epochSeconds_mono`: they keep the order of instants.
* `epochSeconds_whole`: whole seconds stay as they are.
* `epochSeconds_eq_or`, `abs_epochSeconds_sub_le`: at or after the epoch, the result is one of the
  two whole seconds around the instant; before it, it is mirrored.
* `epochSeconds_eq_floor_iff`: it is the later one just if what is missing to it is half the
  distance of two doubles at most (`RoundsUp`).
* `Moment.isValid_iff_exists_ofParts`: a moment is valid just if it can be made of its parts.
* `Moment.IsValid.inCalendar`: all of it holds for their instants.
* `Moment.seconds_order`: **the seconds of moments respect the order of their instants.**
-/

set_option autoImplicit false

namespace EventCalendar.Time

open Binary64 (IsNearest exists_isDouble_int)

/-! ## Instants of the calendar -/

/-- The instants that lie within a day of the dates of the calendar. -/
def InCalendar (i : Int) : Prop :=
  (dayNumber 1 1 1 - 1) * dayLength < i ∧ i < (lastDay + 2) * dayLength

theorem InCalendar.natAbs_lt {i : Int} (h : InCalendar i) : i.natAbs < 2 ^ 38 * 1000000 := by
  have hfirst : dayNumber 1 1 1 = -719162 := by decide
  have hlast : lastDay = 2932896 := by decide
  obtain ⟨h1, h2⟩ := h
  rw [hfirst, dayLength] at h1
  rw [hlast, dayLength] at h2
  omega

section
variable {i j : Int} (hi : i.natAbs < 2 ^ 38 * 1000000)
include hi

theorem exists_isNearest :
    ∃ x : Binary64, x.IsNearest (i / 1000000) ∧ epochSeconds i = x.truncate := by
  refine ⟨Binary64.ofRatio i 1000000, Binary64.isNearest_ofRatio (by decide) ?_, rfl⟩
  rw [Nat.mul_comm] at hi
  exact hi.trans_le (Nat.mul_le_mul_left _ (pow_le_pow_right₀ one_le_two (by decide)))

/-- **Later instants** have no fewer seconds. -/
theorem epochSeconds_mono (hj : j.natAbs < 2 ^ 38 * 1000000) (h : i ≤ j) :
    epochSeconds i ≤ epochSeconds j := by
  rcases h.lt_or_eq with hlt | rfl
  · obtain ⟨x, hx, hseconds⟩ := exists_isNearest hi
    obtain ⟨y, hy, hseconds'⟩ := exists_isNearest hj
    rw [hseconds, hseconds']
    refine Binary64.truncate_mono (hx.mono hy ?_)
    have : (i : ℚ) < j := by exact_mod_cast hlt
    linarith
  · exact le_rfl

end

theorem exists_double_second {i : Int} (hi : i.natAbs < 2 ^ 38 * 1000000) {s : Int}
    (hs : s = i / 1000000 ∨ s = i / 1000000 + 1) :
    ∃ x : Binary64, x.IsDouble ∧ x.value = s := by
  refine exists_isDouble_int ?_
  have : (2 : Nat) ^ 38 ≤ 2 ^ 53 := by decide
  omega

theorem floor_seconds (i : Int) : ⌊(i : ℚ) / 1000000⌋ = i / 1000000 :=
  Rat.floor_intCast_div_natCast i 1000000

theorem floor_le_seconds (i : Int) : ((i / 1000000 : Int) : ℚ) ≤ i / 1000000 := by
  rw [← floor_seconds]
  exact Int.floor_le _

theorem seconds_lt_floor (i : Int) : (i : ℚ) / 1000000 < (i / 1000000 : Int) + 1 := by
  rw [← floor_seconds]
  exact Int.lt_floor_add_one _

section
variable {i : Int} (hi : i.natAbs < 2 ^ 38 * 1000000)
include hi

theorem value_bounds {x : Binary64} (hx : x.IsNearest (i / 1000000)) :
    ((i / 1000000 : Int) : ℚ) ≤ x.value ∧ x.value ≤ (i / 1000000 : Int) + 1 := by
  obtain ⟨y, hy, hvalue⟩ := exists_double_second hi (.inl rfl)
  obtain ⟨z, hz, hvalue'⟩ := exists_double_second hi (.inr rfl)
  rw [Int.cast_add, Int.cast_one] at hvalue'
  rw [← hvalue', ← hvalue]
  refine ⟨hx.le_value hy ?_, hx.value_le hz ?_⟩
  · rw [hvalue]
    exact floor_le_seconds i
  · rw [hvalue']
    exact (seconds_lt_floor i).le

/-- At or after the epoch, the fraction is dropped, unless rounding has reached the next second. -/
theorem epochSeconds_of_isNearest (h0 : 0 ≤ i) {x : Binary64} (hx : x.IsNearest (i / 1000000))
    (hseconds : epochSeconds i = x.truncate) :
    x.value < (i / 1000000 : Int) + 1 ∧ epochSeconds i = i / 1000000 ∨
      x.value = (i / 1000000 : Int) + 1 ∧ epochSeconds i = i / 1000000 + 1 := by
  obtain ⟨hlow, hhigh⟩ := value_bounds hi hx
  have hnonneg : (0 : ℚ) ≤ (i / 1000000 : Int) := by
    exact_mod_cast Int.ediv_nonneg h0 (by decide)
  rw [hseconds, Binary64.truncate_of_nonneg (hnonneg.trans hlow)]
  rcases hhigh.lt_or_eq with hlt | heq
  · exact .inl ⟨hlt, Int.floor_eq_iff.2 ⟨hlow, hlt⟩⟩
  · refine .inr ⟨heq, ?_⟩
    rw [heq]
    exact_mod_cast Int.floor_intCast (R := ℚ) (i / 1000000 + 1)

theorem epochSeconds_eq_or (h0 : 0 ≤ i) :
    epochSeconds i = i / 1000000 ∨ epochSeconds i = i / 1000000 + 1 := by
  obtain ⟨x, hx, hseconds⟩ := exists_isNearest hi
  exact (epochSeconds_of_isNearest hi h0 hx hseconds).imp And.right And.right

end

theorem epochSeconds_neg (i : Int) : epochSeconds (-i) = -epochSeconds i :=
  Binary64.truncate_ofRatio_neg i 1000000

/-- **The result is off by one second at most.** -/
theorem abs_epochSeconds_sub_le {i : Int} (hi : i.natAbs < 2 ^ 38 * 1000000) :
    |(epochSeconds i : ℚ) - i / 1000000| ≤ 1 := by
  -- Before the epoch, everything is mirrored.
  obtain ⟨n, hn0, hn, hsame⟩ : ∃ n : Int, 0 ≤ n ∧ n.natAbs < 2 ^ 38 * 1000000 ∧
      |(epochSeconds i : ℚ) - i / 1000000| = |(epochSeconds n : ℚ) - n / 1000000| := by
    rcases le_total 0 i with h | h
    · exact ⟨i, h, hi, rfl⟩
    · refine ⟨-i, by omega, by omega, ?_⟩
      rw [epochSeconds_neg, ← abs_neg]
      congr 1
      push_cast
      ring
  have hlow := floor_le_seconds n
  have hhigh := seconds_lt_floor n
  rw [hsame, abs_le]
  rcases epochSeconds_eq_or hn hn0 with h | h
  · rw [h]
    constructor <;> linarith
  · rw [h]
    push_cast
    constructor <;> linarith

/-- **Whole seconds** stay as they are. -/
theorem epochSeconds_whole {n : Int} (hn : (n * 1000000).natAbs < 2 ^ 38 * 1000000) :
    epochSeconds (n * 1000000) = n := by
  obtain ⟨x, hx, hseconds⟩ := exists_isNearest hn
  obtain ⟨y, hy, hvalue⟩ := exists_isDouble_int (n := n) (by
    have : (2 : Nat) ^ 38 ≤ 2 ^ 53 := by decide
    omega)
  have hn' : ((n * 1000000 : Int) : ℚ) / 1000000 = y.value := by
    rw [hvalue]
    push_cast
    ring
  rw [hn'] at hx
  rw [hseconds]
  have hxn : x.value = n := (hx.value_eq hy).trans hvalue
  rcases le_total 0 n with h | h
  · rw [Binary64.truncate_of_nonneg (by rw [hxn]; exact_mod_cast h), hxn, Int.floor_intCast]
  · rw [Binary64.truncate_of_nonpos (by rw [hxn]; exact_mod_cast h), hxn, Int.ceil_intCast]

/-! ## Rounding up -/

/-- What is missing to the next second is half the distance of two doubles at most: with `2^k` below
the seconds, doubles are `2^(k - 52)` apart. -/
def RoundsUp (i : Int) : Prop :=
  (1000000 - i % 1000000) * 2 ^ 53 ≤ 1000000 * 2 ^ (i / 1000000).toNat.log2

instance (i : Int) : Decidable (RoundsUp i) := inferInstanceAs (Decidable (_ ≤ _))

theorem log2_le {n k : Nat} (h : n < 2 ^ (k + 1)) : n.log2 ≤ k := by
  rcases Nat.eq_zero_or_pos n with rfl | hpos
  · exact Nat.zero_le k
  · exact Nat.le_of_lt_succ ((Nat.log2_lt hpos.ne').2 h)

theorem not_roundsUp {i : Int} (h0 : 0 ≤ i) (h : i < 2 ^ 34 * 1000000) : ¬ RoundsUp i := by
  have hpow : (2 : Int) ^ (i / 1000000).toNat.log2 ≤ 2 ^ 33 := by
    exact pow_le_pow_right₀ (by decide) (log2_le (by omega))
  have hrest : i % 1000000 < 1000000 := Int.emod_lt_of_pos _ (by decide)
  unfold RoundsUp
  intro hup
  have : (2 : Int) ^ 53 = 2 ^ 33 * 2 ^ 20 := by norm_num
  rw [this] at hup
  omega

theorem missing_eq (i : Int) :
    ((i / 1000000 : Int) : ℚ) + 1 - i / 1000000 = (1000000 - (i % 1000000 : Int)) / 1000000 := by
  have hdiv : ((i / 1000000 : Int) : ℚ) * 1000000 + (i % 1000000 : Int) = i := by
    exact_mod_cast Int.ediv_mul_add_emod i 1000000
  rw [← hdiv]
  ring

theorem roundsUp_iff {i : Int} :
    RoundsUp i ↔
      ((i / 1000000 : Int) : ℚ) + 1 - i / 1000000 ≤ 2 ^ (i / 1000000).toNat.log2 / 2 ^ 53 := by
  rw [missing_eq, div_le_div_iff₀ (by norm_num) (by norm_num), RoundsUp, mul_comm (2 ^ _ : ℚ)]
  exact_mod_cast Iff.rfl

/-- What is missing to the next second is never just half the distance of two doubles: `10^6` is not
divisible by `2^16`. -/
theorem missing_ne (i : Int) {k : Nat} (hk : k ≤ 37) :
    ((i / 1000000 : Int) : ℚ) + 1 - i / 1000000 ≠ 2 ^ k / 2 ^ 53 := by
  obtain ⟨j, hj⟩ : ∃ j, k + j + 16 = 53 := ⟨37 - k, by omega⟩
  intro h
  rw [missing_eq, div_eq_div_iff (by norm_num) (by norm_num), ← hj, pow_add, pow_add] at h
  have hcancel : (2 : ℚ) ^ k * ((1000000 - (i % 1000000 : Int)) * 2 ^ j * 2 ^ 16)
      = 2 ^ k * 1000000 := by
    linarith
  have hdvd : (1000000 - i % 1000000) * 2 ^ j * 2 ^ 16 = 1000000 := by
    exact_mod_cast mul_left_cancel₀ (by positivity) hcancel
  omega

section
variable {i : Int} (hi : i.natAbs < 2 ^ 38 * 1000000) (h0 : 0 ≤ i)
include hi h0

theorem log2_seconds_le : (i / 1000000).toNat.log2 ≤ 37 := log2_le (by omega)

/-- The seconds as a natural number, and the place of its last bit in a double. -/
theorem exists_scale :
    ∃ s j : Nat, i / 1000000 = s ∧ s.log2 + j = 52 ∧ (2 : ℚ) ^ s.log2 * 2 ^ j = 2 ^ 52 := by
  have hlog := log2_seconds_le hi h0
  have hj : (i / 1000000).toNat.log2 + (52 - (i / 1000000).toNat.log2) = 52 := by omega
  exact ⟨(i / 1000000).toNat, _, by omega, hj, by rw [← pow_add, hj]⟩

/-- The last double before the next second, but for the first second. -/
theorem exists_double_before :
    ∃ y : Binary64, y.IsDouble ∧
      y.value = (i / 1000000 : Int) + 1 - 2 * (2 ^ (i / 1000000).toNat.log2 / 2 ^ 53) := by
  obtain ⟨s, j, hs, hj, hpow⟩ := exists_scale hi h0
  rw [hs, Int.toNat_natCast]
  have hpos : 0 < 2 ^ j := Nat.two_pow_pos j
  have hle : (s + 1) * 2 ^ j ≤ 2 ^ 53 := by
    refine (Nat.mul_le_mul_right _ (Nat.lt_log2_self (n := s))).trans (le_of_eq ?_)
    rw [← Nat.pow_add, show s.log2 + 1 + j = 53 by omega]
  have hone : 1 ≤ (s + 1) * 2 ^ j := Nat.mul_pos (Nat.succ_pos s) hpos
  obtain ⟨y, hy, hvalue⟩ := Binary64.exists_isDouble (m := (s + 1) * 2 ^ j - 1) (by omega) false
    (e := -j) (by rw [Binary64.minExponent]; omega) (by rw [Binary64.maxExponent]; omega)
  refine ⟨y, hy, hvalue.trans ?_⟩
  have hj0 : (2 : ℚ) ^ j ≠ 0 := by positivity
  rw [Nat.cast_sub hone, zpow_neg, zpow_natCast]
  field_simp
  push_cast
  linarith

theorem value_le_before {x : Binary64} (hx : x.IsDouble) (h1 : 1 ≤ i / 1000000)
    (hlow : ((i / 1000000 : Int) : ℚ) ≤ x.value) (hlt : x.value < (i / 1000000 : Int) + 1) :
    x.value ≤ (i / 1000000 : Int) + 1 - 2 * (2 ^ (i / 1000000).toNat.log2 / 2 ^ 53) := by
  obtain ⟨s, j, hs, hj, hpow⟩ := exists_scale hi h0
  rw [hs, Int.toNat_natCast]
  rw [hs, Int.cast_natCast] at hlow hlt
  have hself : (2 : ℚ) ^ s.log2 ≤ s := by exact_mod_cast Nat.log2_self_le (by omega)
  have hj0 : (0 : ℚ) < 2 ^ j := by positivity
  have hunit : (2 : ℚ) ^ (-j : Int) * 2 ^ j = 1 := by
    rw [zpow_neg, zpow_natCast, inv_mul_cancel₀ hj0.ne']
  rcases hx.on_grid (-j) with ⟨k, hk⟩ | ⟨hsmall, -⟩
  · -- On the grid of doubles, the next second is at least one step away.
    have hk' : x.value * 2 ^ j = k := by rw [hk, mul_assoc, hunit, mul_one]
    have hstep : k + 1 ≤ (s + 1) * 2 ^ j := by
      have : (k : ℚ) < (s + 1) * 2 ^ j := hk' ▸ mul_lt_mul_of_pos_right hlt hj0
      exact_mod_cast this
    have hstep' : x.value * 2 ^ j + 1 ≤ (s + 1) * 2 ^ j := by
      rw [hk']
      exact_mod_cast hstep
    have hdist : 2 * ((2 : ℚ) ^ s.log2 / 2 ^ 53) * 2 ^ j = 1 := by
      linear_combination hpow / 2 ^ 52
    rw [Int.cast_natCast]
    refine le_of_mul_le_mul_right ?_ hj0
    rw [sub_mul, hdist]
    linarith
  · have : (2 : ℚ) ^ 52 * 2 ^ (-j : Int) = 2 ^ s.log2 := by
      rw [← hpow, mul_assoc, mul_comm (2 ^ j), hunit, mul_one]
    linarith

/-- **The fraction of an instant** is dropped just if its seconds do not round up. -/
theorem epochSeconds_eq_floor_iff : epochSeconds i = i / 1000000 ↔ ¬ RoundsUp i := by
  obtain ⟨x, hx, hseconds⟩ := exists_isNearest hi
  have hbounds := value_bounds hi hx
  have hmissing : 0 ≤ ((i / 1000000 : Int) : ℚ) + 1 - i / 1000000 :=
    sub_nonneg.2 (seconds_lt_floor i).le
  have hne := missing_ne i (log2_seconds_le hi h0)
  rcases epochSeconds_of_isNearest hi h0 hx hseconds with ⟨hbelow, heq⟩ | ⟨hnext, heq⟩
  · -- The double lies before the last one, so it is nearest only if that is not too far away.
    refine iff_of_true heq fun hup => ?_
    have h1 : 1 ≤ i / 1000000 := by
      by_contra hfirst
      exact not_roundsUp h0 (by omega) hup
    have hbefore := value_le_before hi h0 hx.isDouble h1 hbounds.1 hbelow
    obtain ⟨z, hz, hvalue⟩ := exists_double_second hi (.inr rfl)
    have hnear := hx.nearest z hz
    rw [Int.cast_add, Int.cast_one] at hvalue
    rw [hvalue, abs_of_nonneg hmissing] at hnear
    have hup' := lt_of_le_of_ne (roundsUp_iff.1 hup) hne
    have := neg_le_of_abs_le hnear
    linarith
  · refine iff_of_false (by omega) fun hdown => ?_
    obtain ⟨y, hy, hvalue⟩ := exists_double_before hi h0
    have hnear := hx.nearest y hy
    have hfar := not_le.1 (mt roundsUp_iff.2 hdown)
    rw [hnext, hvalue, abs_of_nonneg hmissing] at hnear
    have hpos : (0 : ℚ) < 2 ^ (i / 1000000).toNat.log2 / 2 ^ 53 := by positivity
    rcases le_abs.1 hnear with h | h <;> linarith

end

/-! ## Moments -/

namespace Moment

/-- A moment that there is: a date of the calendar, a time of day, and an offset of less than a
day. -/
structure IsValid (t : Moment) : Prop where
  date : (Date.mk t.year t.month t.day).IsDate
  hour : t.hour ≤ 23
  minute : t.minute ≤ 59
  second : t.second ≤ 59
  microsecond : t.microsecond ≤ 999999
  offset : ∀ length, t.offset = some length → |length| < dayLength

theorem abs_getD_lt_iff {offset : Option Int} :
    |offset.getD 0| < dayLength ↔ ∀ length, offset = some length → |length| < dayLength := by
  cases offset with
  | none => exact iff_of_true (by decide) fun length h => (by cases h)
  | some length => simp

instance (t : Moment) : Decidable t.IsValid :=
  decidable_of_iff ((Date.mk t.year t.month t.day).IsDate ∧ t.hour ≤ 23 ∧ t.minute ≤ 59 ∧
      t.second ≤ 59 ∧ t.microsecond ≤ 999999 ∧ |t.offset.getD 0| < dayLength)
    ⟨fun h => ⟨h.1, h.2.1, h.2.2.1, h.2.2.2.1, h.2.2.2.2.1, abs_getD_lt_iff.1 h.2.2.2.2.2⟩,
      fun h => ⟨h.date, h.hour, h.minute, h.second, h.microsecond, abs_getD_lt_iff.2 h.offset⟩⟩

theorem within_iff {lo hi n : Int} : within lo hi n = true ↔ lo ≤ n ∧ n ≤ hi := by
  simp [within]

theorem parts_eq_ok_iff {year month day hour minute second microsecond : Int}
    {offset : Option Int} {t : Moment} :
    ofParts.parts year month day hour minute second microsecond offset = .ok t ↔
      (1 ≤ year ∧ year ≤ 9999) ∧ (1 ≤ month ∧ month ≤ 12) ∧
        (1 ≤ day ∧ day ≤ daysInMonth year.toNat month.toNat) ∧ (0 ≤ hour ∧ hour ≤ 23) ∧
        (0 ≤ minute ∧ minute ≤ 59) ∧ (0 ≤ second ∧ second ≤ 59) ∧
        (0 ≤ microsecond ∧ microsecond ≤ 999999) ∧
        ⟨year.toNat, month.toNat, day.toNat, hour.toNat, minute.toNat, second.toNat,
          microsecond.toNat, offset⟩ = t := by
  simp only [ofParts.parts, ← within_iff]
  split_ifs <;> simp_all

theorem ofParts_eq_ok_iff {year month day hour minute second microsecond : Int}
    {offset : Option Int} {t : Moment} :
    ofParts year month day hour minute second microsecond offset = .ok t ↔
      ofParts.parts year month day hour minute second microsecond offset = .ok t ∧
        ∀ length, offset = some length → |length| < dayLength := by
  cases offset with
  | none => simp [ofParts]
  | some length =>
    have hrange : within (1 - dayLength) (dayLength - 1) length = true ↔ |length| < dayLength := by
      rw [within_iff, abs_lt]
      omega
    simp only [ofParts, hrange]
    split <;> simp_all

/-- **The moments that there are** are those that are made of their parts. -/
theorem isValid_iff_exists_ofParts {t : Moment} :
    t.IsValid ↔ ∃ year month day hour minute second microsecond offset,
      ofParts year month day hour minute second microsecond offset = .ok t := by
  simp only [ofParts_eq_ok_iff, parts_eq_ok_iff]
  constructor
  · intro h
    obtain ⟨year, month, day, hour, minute, second, microsecond, offset⟩ := t
    obtain ⟨hyear, hmonth, hday⟩ := h.date
    have hhour := h.hour
    have hminute := h.minute
    have hsecond := h.second
    have hmicrosecond := h.microsecond
    dsimp only at *
    refine ⟨year, month, day, hour, minute, second, microsecond, offset, ⟨by omega, by omega, ?_,
      by omega, by omega, by omega, by omega, rfl⟩, h.offset⟩
    rw [Int.toNat_natCast, Int.toNat_natCast]
    omega
  · rintro ⟨year, month, day, hour, minute, second, microsecond, offset,
      ⟨hyear, hmonth, hday, hhour, hminute, hsecond, hmicrosecond, rfl⟩, hoffset⟩
    refine ⟨⟨?_, ?_, ?_⟩, ?_, ?_, ?_, ?_, hoffset⟩
    all_goals dsimp only; omega

theorem IsValid.inCalendar {t : Moment} (h : t.IsValid) : InCalendar t.instant := by
  obtain ⟨hlow, hhigh⟩ := Date.number_bounds h.date
  have hoffset := abs_lt.1 (abs_getD_lt_iff.2 h.offset)
  have hhour := h.hour
  have hminute := h.minute
  have hsecond := h.second
  have hmicrosecond := h.microsecond
  rw [Date.number] at hlow hhigh
  dsimp only at hlow hhigh
  unfold InCalendar
  rw [instant, instantOf]
  rw [dayLength] at *
  push_cast
  omega

/-- **The seconds of moments** respect the order of their instants, whatever the offsets are; they
differ from the instant by one second at most; and they are what is left, toward zero, of the double
nearest to the instant's seconds. -/
theorem seconds_order {a b : Moment} (ha : a.IsValid) (hb : b.IsValid) :
    (a.instant ≤ b.instant → a.seconds ≤ b.seconds) ∧
      (a.instant = b.instant → a.seconds = b.seconds) ∧
      |(a.seconds : ℚ) - a.instant / 1000000| ≤ 1 ∧
      ∃ x : Binary64, x.IsNearest (a.instant / 1000000) ∧
        a.seconds = if 0 ≤ x.value then ⌊x.value⌋ else ⌈x.value⌉ := by
  have hi := ha.inCalendar.natAbs_lt
  refine ⟨epochSeconds_mono hi hb.inCalendar.natAbs_lt, fun h => seconds_eq_of_instant_eq h,
    abs_epochSeconds_sub_le hi, ?_⟩
  obtain ⟨x, hx, hseconds⟩ := exists_isNearest hi
  refine ⟨x, hx, hseconds.trans ?_⟩
  split
  · rename_i h
    exact Binary64.truncate_of_nonneg h
  · rename_i h
    exact Binary64.truncate_of_nonpos (not_le.1 h).le

/-- An offset may lead back beyond the first day of the calendar. -/
theorem seconds_order_of_first_day :
    (Moment.mk 1 1 1 0 30 0 500000 (some 3600000000)).instant
        ≤ (Moment.mk 1 1 1 0 0 0 0 none).instant ∧
      (Moment.mk 1 1 1 0 30 0 500000 (some 3600000000)).seconds
        ≤ (Moment.mk 1 1 1 0 0 0 0 none).seconds := by
  have hle : (Moment.mk 1 1 1 0 30 0 500000 (some 3600000000)).instant
      ≤ (Moment.mk 1 1 1 0 0 0 0 none).instant := by decide
  exact ⟨hle, (seconds_order (by decide) (by decide)).1 hle⟩

end Moment

end EventCalendar.Time
