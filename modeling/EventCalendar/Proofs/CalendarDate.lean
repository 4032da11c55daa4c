import EventCalendar.Time.Date
import Mathlib.Data.Nat.Find
import Mathlib.Order.Monotone.Basic

/-!
# The dates of the calendar

Dates and day numbers are the same thing, counted from 1970-01-01:

* `Date.number_next`: **the next date has the next number**, across the ends of months and years.
* `Date.number_bounds`: the numbers of the dates of the years 1 to 9999 lie between those of the
  first and the last of them.
* `Date.ofNumber_spec`: each number in between is that of a date, `Date.ofNumber`.
* `ofYearMonthDay?_eq_some_iff`: what three numbers stand for, if they are a date at all.
-/

set_option autoImplicit false

namespace EventCalendar.Time

/-! ## Years and months -/

theorem daysBeforeYear_one : daysBeforeYear 1 = 0 := rfl

theorem isLeap_iff {year : Nat} : isLeap year = true ↔ 4 ∣ year ∧ (¬ 100 ∣ year ∨ 400 ∣ year) := by
  simp [isLeap, Nat.dvd_iff_mod_eq_zero]

theorem daysBeforeYear_succ {year : Nat} (h : 1 ≤ year) :
    daysBeforeYear (year + 1) = daysBeforeYear year + daysInYear year := by
  obtain ⟨past, rfl⟩ : ∃ past, year = past + 1 := ⟨year - 1, by omega⟩
  have h4 : 100 ∣ past + 1 → 4 ∣ past + 1 := Nat.dvd_trans (by decide)
  have h100 : 400 ∣ past + 1 → 100 ∣ past + 1 := Nat.dvd_trans (by decide)
  have hle : past / 100 ≤ past / 4 := Nat.div_le_div_left (by decide) (by decide)
  -- The year counts as a leap year just if the quotients by 4, 100 and 400 say so together.
  simp only [daysBeforeYear, daysInYear, isLeap_iff, Nat.add_sub_cancel, Nat.succ_div]
  by_cases d4 : 4 ∣ past + 1
  · by_cases d100 : 100 ∣ past + 1
    · by_cases d400 : 400 ∣ past + 1
      · simp [d4, d100, d400]
        omega
      · simp [d4, d100, d400]
        omega
    · have d400 := mt h100 d100
      simp [d4, d100, d400]
      omega
  · have d100 := mt h4 d4
    have d400 := mt h100 d100
    simp [d4, d100, d400]
    omega

theorem daysBeforeYear_mono : Monotone daysBeforeYear := by
  refine monotone_nat_of_le_succ fun year => ?_
  rcases Nat.eq_zero_or_pos year with rfl | h
  · exact le_rfl
  · rw [daysBeforeYear_succ h]
    exact Nat.le_add_right _ _

theorem daysBeforeMonth_mono (year : Nat) : Monotone (daysBeforeMonth year) :=
  monotone_nat_of_le_succ fun _ => Nat.le_add_right _ _

theorem daysBeforeMonth_one (year : Nat) : daysBeforeMonth year 1 = 0 := rfl

theorem daysBeforeMonth_thirteen (year : Nat) : daysBeforeMonth year 13 = daysInYear year := by
  cases h : isLeap year <;> simp [daysBeforeMonth, daysInMonth, daysInYear, h]

/-! ## Dates -/

/-- A year, a month and a day of the month. -/
structure Date where
  year : Nat
  month : Nat
  day : Nat
  deriving DecidableEq, Repr

namespace Date

structure IsDate (d : Date) : Prop where
  year : 1 ≤ d.year ∧ d.year ≤ 9999
  month : 1 ≤ d.month ∧ d.month ≤ 12
  day : 1 ≤ d.day ∧ d.day ≤ daysInMonth d.year d.month

instance (d : Date) : Decidable d.IsDate :=
  decidable_of_iff ((1 ≤ d.year ∧ d.year ≤ 9999) ∧ (1 ≤ d.month ∧ d.month ≤ 12) ∧
      1 ≤ d.day ∧ d.day ≤ daysInMonth d.year d.month)
    ⟨fun h => ⟨h.1, h.2.1, h.2.2⟩, fun h => ⟨h.year, h.month, h.day⟩⟩

def number (d : Date) : Int := dayNumber d.year d.month d.day

/-- The date that follows: the next day of the month, or the first one of the next month or year. -/
def next (d : Date) : Date :=
  if d.day < daysInMonth d.year d.month then { d with day := d.day + 1 }
  else if d.month < 12 then { d with month := d.month + 1, day := 1 }
  else ⟨d.year + 1, 1, 1⟩

/-- **The next date has the next number.** -/
theorem number_next {d : Date} (h : d.IsDate) : d.next.number = d.number + 1 := by
  obtain ⟨year, month, day⟩ := d
  obtain ⟨⟨hyear, -⟩, ⟨-, hmonth⟩, -, hday⟩ := h
  dsimp only at hyear hmonth hday
  unfold next
  dsimp only
  split
  · exact dayNumber_succ year month day
  · rename_i hlast
    obtain rfl : day = daysInMonth year month := by omega
    split
    · simp only [number, dayNumber, daysBeforeMonth]
      omega
    · rename_i hdecember
      obtain rfl : month = 12 := by omega
      have hyear' := daysBeforeMonth_thirteen year
      rw [daysBeforeMonth] at hyear'
      simp only [number, dayNumber, daysBeforeYear_succ hyear, daysBeforeMonth_one]
      omega

theorem IsDate.le_daysInYear {d : Date} (h : d.IsDate) :
    daysBeforeMonth d.year d.month + d.day ≤ daysInYear d.year := by
  have hmonth : daysBeforeMonth d.year (d.month + 1) ≤ daysBeforeMonth d.year 13 :=
    daysBeforeMonth_mono _ (Nat.succ_le_succ h.month.2)
  rw [daysBeforeMonth_thirteen, daysBeforeMonth] at hmonth
  exact (Nat.add_le_add_left h.day.2 _).trans hmonth

theorem number_bounds {d : Date} (h : d.IsDate) :
    dayNumber 1 1 1 ≤ d.number ∧ d.number ≤ lastDay := by
  have hyear : daysBeforeYear (d.year + 1) ≤ daysBeforeYear 10000 :=
    daysBeforeYear_mono (Nat.succ_le_succ h.year.2)
  rw [daysBeforeYear_succ h.year.1] at hyear
  have hday := h.le_daysInYear
  have hpos := h.day.1
  have hlast : lastDay = (daysBeforeYear 10000 : Nat) - 1 - (epochDays : Int) := by decide
  rw [hlast, number]
  simp only [dayNumber, daysBeforeYear_one, daysBeforeMonth_one]
  omega

def ofNumber (number : Int) : Date :=
  let count := (number + epochDays).toNat
  let year := Nat.findGreatest (daysBeforeYear · ≤ count) 9999
  let rest := count - daysBeforeYear year
  let month := Nat.findGreatest (daysBeforeMonth year · ≤ rest) 12
  ⟨year, month, rest - daysBeforeMonth year month + 1⟩

/-- Where a count that starts at zero with 1 falls into the steps of a monotone sum. -/
theorem findGreatest_step (before : Nat → Nat) (bound : Nat) {count : Nat} (hbound : 1 ≤ bound)
    (hone : before 1 = 0) (hend : count < before (bound + 1)) :
    (1 ≤ Nat.findGreatest (before · ≤ count) bound ∧
        Nat.findGreatest (before · ≤ count) bound ≤ bound) ∧
      before (Nat.findGreatest (before · ≤ count) bound) ≤ count ∧
      count < before (Nat.findGreatest (before · ≤ count) bound + 1) := by
  have hfirst : before 1 ≤ count := hone ▸ Nat.zero_le _
  have hle : Nat.findGreatest (before · ≤ count) bound ≤ bound := Nat.findGreatest_le _
  refine ⟨⟨Nat.le_findGreatest hbound hfirst, hle⟩,
    Nat.findGreatest_spec (P := (before · ≤ count)) hbound hfirst, ?_⟩
  rcases hle.lt_or_eq with hlt | heq
  · exact not_le.1 (Nat.findGreatest_is_greatest (P := (before · ≤ count)) (Nat.lt_succ_self _) hlt)
  · rwa [heq]

/-- **Each number in between is that of a date.** -/
theorem ofNumber_spec {number : Int} (h : dayNumber 1 1 1 ≤ number) (h' : number ≤ lastDay) :
    (ofNumber number).IsDate ∧ (ofNumber number).number = number := by
  have hfirst : dayNumber 1 1 1 = -(epochDays : Int) := by decide
  have hlast : lastDay = (daysBeforeYear 10000 : Nat) - 1 - (epochDays : Int) := by decide
  rw [hfirst] at h
  rw [hlast] at h'
  unfold ofNumber
  generalize hcount : (number + epochDays).toNat = count
  dsimp only
  obtain ⟨hyear, hbefore, hafter⟩ := findGreatest_step daysBeforeYear 9999 (by decide)
    daysBeforeYear_one (show count < daysBeforeYear 10000 by omega)
  generalize Nat.findGreatest (daysBeforeYear · ≤ count) 9999 = year at *
  rw [daysBeforeYear_succ hyear.1, ← daysBeforeMonth_thirteen] at hafter
  obtain ⟨hmonth, hbefore', hafter'⟩ := findGreatest_step (daysBeforeMonth year) 12 (by decide)
    (daysBeforeMonth_one year) (show count - daysBeforeYear year < daysBeforeMonth year 13 by omega)
  generalize Nat.findGreatest (daysBeforeMonth year · ≤ count - daysBeforeYear year) 12 = month at *
  rw [daysBeforeMonth] at hafter'
  refine ⟨⟨hyear, hmonth, by dsimp only; omega⟩, ?_⟩
  simp only [Date.number, dayNumber]
  omega

end Date

theorem ofYearMonthDay?_eq_some_iff {year month day : Nat} {number : Int} :
    ofYearMonthDay? year month day = some number ↔
      (Date.mk year month day).IsDate ∧ number = (Date.mk year month day).number := by
  have hcheck : (isYear year && 1 ≤ month && month ≤ 12 && 1 ≤ day &&
      day ≤ daysInMonth year month) = true ↔ (Date.mk year month day).IsDate := by
    simp only [isYear, Bool.and_eq_true, decide_eq_true_eq]
    exact ⟨fun h => ⟨h.1.1.1.1, ⟨h.1.1.1.2, h.1.1.2⟩, ⟨h.1.2, h.2⟩⟩,
      fun h => ⟨⟨⟨⟨h.year, h.month.1⟩, h.month.2⟩, h.day.1⟩, h.day.2⟩⟩
  unfold ofYearMonthDay?
  by_cases hdate : (Date.mk year month day).IsDate
  · rw [if_pos (hcheck.2 hdate), Option.some.injEq, eq_comm]
    exact (and_iff_right hdate).symm
  · rw [if_neg (mt hcheck.1 hdate)]
    exact ⟨fun h => (by cases h), fun h => absurd h.1 hdate⟩

end EventCalendar.Time
