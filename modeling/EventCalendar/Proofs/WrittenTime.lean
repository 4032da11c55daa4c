import EventCalendar.Proofs.EpochSeconds
import EventCalendar.Proofs.SecondsText

/-!
# Written times

A date and time as they are written, `2024-02-29T12:30:00+01:00`, and the decimal notation of epoch
seconds:

* `Iso.digits?_padded`: a number that is filled up to a width is read back.
* `WrittenTime.read?_text`: **the instant of a written time** is that of its date, its time of day
  and its zone, if the date is one of the calendar; otherwise there is none.
* `WrittenTime.ofSeconds_spec`: every second of the calendar can be written in any zone.
* `readTimestamp_notations`: **both notations are read as the same seconds.**
-/

set_option autoImplicit false

namespace EventCalendar.Time

/-! ## Numbers of a fixed width -/

theorem toList_padded (width n : Nat) :
    (padded width n).toList
      = List.replicate (width - (Nat.toDigits 10 n).length) '0' ++ Nat.toDigits 10 n := by
  rw [padded, String.toList_ofList]

theorem isDigit_of_mem_padded {width n : Nat} {c : Char} (h : c ∈ (padded width n).toList) :
    c.isDigit = true := by
  rw [toList_padded, List.mem_append] at h
  rcases h with h | h
  · rw [List.eq_of_mem_replicate h]
    rfl
  · exact Text.isDigit_of_mem_toDigits h

theorem length_padded {width n : Nat} (hwidth : 0 < width) (h : n < 10 ^ width) :
    (padded width n).toList.length = width := by
  have := (Nat.length_toDigits_le_iff (by decide) hwidth).2 h
  rw [toList_padded, List.length_append, List.length_replicate]
  omega

namespace Iso

theorem asciiDigit?_of_isDigit {c : Char} (h : c.isDigit = true) :
    Text.asciiDigit? c = some (c.toNat - 48) := by
  have hrange : '0' ≤ c ∧ c ≤ '9' := by
    simpa [Char.isDigit, Char.le_def] using h
  rw [Text.asciiDigit?, if_pos hrange]

theorem digits?_append {ds : List Char} (h : ∀ c ∈ ds, c.isDigit = true) (rest : List Char) :
    digits? ds.length (ds ++ rest) = some (Nat.ofDigitChars 10 ds 0, rest) := by
  induction ds with
  | nil => rfl
  | cons c ds ih =>
    rw [List.forall_mem_cons] at h
    have hvalue : Nat.ofDigitChars 10 (c :: ds) 0
        = (c.toNat - 48) * Nat.pow 10 ds.length + Nat.ofDigitChars 10 ds 0 := by
      rw [Nat.ofDigitChars_cons, Nat.ofDigitChars_eq_ofDigitChars_zero, Nat.mul_zero, Nat.zero_add,
        Nat.mul_comm]
      rfl
    rw [List.length_cons, List.cons_append, digits?, asciiDigit?_of_isDigit h.1, hvalue]
    simp only [Option.bind_eq_bind, Option.bind_some, ih h.2]
    rfl

/-- **A number of a fixed width** is read back. -/
theorem digits?_padded {width n : Nat} (hwidth : 0 < width) (h : n < 10 ^ width)
    (rest : List Char) : digits? width ((padded width n).toList ++ rest) = some (n, rest) := by
  have hdigits : ∀ c ∈ (padded width n).toList, c.isDigit = true := fun _ hc =>
    isDigit_of_mem_padded hc
  have hread := digits?_append hdigits rest
  rw [length_padded hwidth h] at hread
  rw [hread, toList_padded, Nat.ofDigitChars_append, Nat.ofDigitChars_replicate_zero, Nat.mul_zero,
    Nat.ofDigitChars_ten_toDigits]

end Iso

/-! ## Written times -/

/-- How the zone of a written time is marked; without a mark it is UTC. -/
inductive ZoneMark
  | absent
  | zulu (capital : Bool)
  | offset (west : Bool) (hours minutes : Nat)
  deriving DecidableEq, Repr

namespace ZoneMark

def text : ZoneMark → String
  | absent => ""
  | zulu capital => if capital then "Z" else "z"
  | offset west hours minutes =>
    (if west then "-" else "+") ++ padded 2 hours ++ ":" ++ padded 2 minutes

def seconds : ZoneMark → Int
  | absent => 0
  | zulu _ => 0
  | offset west hours minutes =>
    if west then -(3600 * (hours : Int) + 60 * minutes) else 3600 * (hours : Int) + 60 * minutes

def IsZone : ZoneMark → Prop
  | offset _ hours minutes => hours ≤ 23 ∧ minutes ≤ 59
  | _ => True

instance (zone : ZoneMark) : Decidable zone.IsZone :=
  match zone with
  | absent => inferInstanceAs (Decidable True)
  | zulu _ => inferInstanceAs (Decidable True)
  | offset _ hours minutes => inferInstanceAs (Decidable (hours ≤ 23 ∧ minutes ≤ 59))

end ZoneMark

/-- A date, a time of day and a zone, as they are written. -/
structure WrittenTime where
  date : Date
  hour : Nat
  minute : Nat
  second : Nat
  zone : ZoneMark
  deriving DecidableEq, Repr

namespace WrittenTime

def text (w : WrittenTime) : String :=
  padded 4 w.date.year ++ "-" ++ padded 2 w.date.month ++ "-" ++ padded 2 w.date.day ++ "T"
    ++ padded 2 w.hour ++ ":" ++ padded 2 w.minute ++ ":" ++ padded 2 w.second ++ w.zone.text

def seconds (w : WrittenTime) : Int :=
  86400 * w.date.number + 3600 * w.hour + 60 * w.minute + w.second - w.zone.seconds

/-- The numbers of the date have as many digits as are written, and there is such a time of day in
such a zone. The date need not be one of the calendar. -/
structure Fits (w : WrittenTime) : Prop where
  year : w.date.year ≤ 9999
  month : w.date.month ≤ 99
  day : w.date.day ≤ 99
  hour : w.hour ≤ 23
  minute : w.minute ≤ 59
  second : w.second ≤ 59
  zone : w.zone.IsZone

instance (w : WrittenTime) : Decidable w.Fits :=
  decidable_of_iff (w.date.year ≤ 9999 ∧ w.date.month ≤ 99 ∧ w.date.day ≤ 99 ∧ w.hour ≤ 23 ∧
      w.minute ≤ 59 ∧ w.second ≤ 59 ∧ w.zone.IsZone)
    ⟨fun h => ⟨h.1, h.2.1, h.2.2.1, h.2.2.2.1, h.2.2.2.2.1, h.2.2.2.2.2.1, h.2.2.2.2.2.2⟩,
      fun h => ⟨h.year, h.month, h.day, h.hour, h.minute, h.second, h.zone⟩⟩

end WrittenTime

/-! ## Reading them -/

namespace Iso

theorem digits?_four {n : Nat} (h : n ≤ 9999) (rest : List Char) :
    digits? 4 ((padded 4 n).toList ++ rest) = some (n, rest) :=
  digits?_padded (by decide) (by omega) rest

theorem digits?_two {n : Nat} (h : n ≤ 99) (rest : List Char) :
    digits? 2 ((padded 2 n).toList ++ rest) = some (n, rest) :=
  digits?_padded (by decide) (by omega) rest

theorem zoneLength?_padded {hours minutes : Nat} (hhours : hours ≤ 23) (hminutes : minutes ≤ 59) :
    zoneLength? ((padded 2 hours).toList ++ ':' :: (padded 2 minutes).toList)
      = some (hours * 3600 + minutes * 60) := by
  have hread := digits?_two (hminutes.trans (by decide)) []
  rw [List.append_nil] at hread
  simp [zoneLength?, digits?_two (hhours.trans (by decide)), skip, hread, hhours, hminutes]

theorem zone?_text {zone : ZoneMark} (h : zone.IsZone) (hne : zone ≠ .absent) :
    zone? zone.text.toList = some zone.seconds := by
  cases zone with
  | absent => exact absurd rfl hne
  | zulu capital => cases capital <;> decide
  | offset west hours minutes =>
    have htext : (ZoneMark.offset west hours minutes).text.toList
        = (if west then '-' else '+') ::
          ((padded 2 hours).toList ++ ':' :: (padded 2 minutes).toList) := by
      cases west <;> simp [ZoneMark.text]
    rw [htext]
    cases west
    · simp [ZoneMark.seconds, zone?, zoneLength?_padded h.1 h.2]
      omega
    · simp [ZoneMark.seconds, zone?, zoneLength?_padded h.1 h.2]
      omega

theorem afterSecond?_text {zone : ZoneMark} (h : zone.IsZone) (clock : ClockForm)
    (hclock : clock.offset = none) :
    ∃ offset, afterSecond? clock zone.text.toList = some { clock with offset } ∧
      offset.getD 0 = zone.seconds := by
  by_cases hne : zone = .absent
  · subst hne
    refine ⟨none, ?_, rfl⟩
    rw [← hclock]
    rfl
  · have hfirst : fraction? zone.text.toList = none ∧ startsZone zone.text.toList = true ∧
        zone.text.toList.isEmpty = false := by
      cases zone with
      | absent => exact absurd rfl hne
      | zulu capital => cases capital <;> decide
      | offset west hours minutes =>
        cases west <;> simp [ZoneMark.text, fraction?, startsZone]
    refine ⟨some zone.seconds, ?_, rfl⟩
    simp [afterSecond?, clockEnd?, hfirst, zone?_text h hne]

theorem startsZone_padded {width n : Nat} (hwidth : 0 < width) (h : n < 10 ^ width)
    (rest : List Char) : startsZone ((padded width n).toList ++ rest) = false := by
  have hlength := length_padded hwidth h
  have hdigits : ∀ c ∈ (padded width n).toList, c.isDigit = true := fun _ hc =>
    isDigit_of_mem_padded hc
  cases hs : (padded width n).toList with
  | nil =>
    rw [hs] at hlength
    exact absurd hlength hwidth.ne
  | cons c s =>
    have hc := hdigits c (hs ▸ List.mem_cons_self)
    have hother : ∀ d : Char, d.isDigit = false → (c == d) = false := by
      intro d hd
      refine beq_false_of_ne fun hcd => ?_
      rw [hcd, hd] at hc
      cases hc
    simp only [List.cons_append, startsZone, hother '-' rfl, hother '+' rfl, hother 'Z' rfl,
      hother 'z' rfl, Bool.or_false]

end Iso

namespace WrittenTime

/-- The time of day of a written time, after the separator. -/
def clockText (w : WrittenTime) : List Char :=
  (padded 2 w.hour).toList ++ ':' :: ((padded 2 w.minute).toList ++
    ':' :: ((padded 2 w.second).toList ++ w.zone.text.toList))

theorem toList_text (w : WrittenTime) :
    w.text.toList = (padded 4 w.date.year).toList ++ '-' :: ((padded 2 w.date.month).toList ++
      '-' :: ((padded 2 w.date.day).toList ++ 'T' :: w.clockText)) := by
  simp [text, clockText]

theorem isBlank_of_mem_text (w : WrittenTime) : ∀ c ∈ w.text.toList, Text.isBlank c = false := by
  have hpadded : ∀ width n, ∀ c ∈ (padded width n).toList, Text.isBlank c = false :=
    fun _ _ _ hc => Text.isBlank_of_isDigitMark (Text.isDigitMark_of_isDecimalDigit
      (Text.isDecimalDigit_of_isDigit (isDigit_of_mem_padded hc)))
  have hmark : ∀ mark : Char, Text.isBlank mark = false → ∀ c ∈ [mark], Text.isBlank c = false :=
    fun _ h => List.forall_mem_singleton.2 h
  have hzone : ∀ c ∈ w.zone.text.toList, Text.isBlank c = false := by
    cases w.zone with
    | absent => exact List.forall_mem_nil _
    | zulu capital =>
      cases capital
      · exact hmark 'z' (by decide)
      · exact hmark 'Z' (by decide)
    | offset west hours minutes =>
      have hsign : ∀ c ∈ (if west then "-" else "+").toList, Text.isBlank c = false := by
        cases west
        · exact hmark '+' (by decide)
        · exact hmark '-' (by decide)
      simp only [ZoneMark.text, String.toList_append, List.forall_mem_append]
      exact ⟨⟨⟨hsign, hpadded 2 hours⟩, hmark ':' (by decide)⟩, hpadded 2 minutes⟩
  rw [toList_text, clockText]
  simp only [List.forall_mem_append, List.forall_mem_cons]
  exact ⟨hpadded _ _, by decide, hpadded _ _, by decide, hpadded _ _, by decide, hpadded _ _,
    by decide, hpadded _ _, by decide, hpadded _ _, hzone⟩

theorem looksLikeSeconds_text (w : WrittenTime) :
    Parameters.looksLikeSeconds w.text.toList = false := by
  have hmem : 'T' ∈ w.text.toList := by simp [toList_text]
  rw [← Bool.not_eq_true, Parameters.looksLikeSeconds_iff]
  intro hlooks
  obtain ⟨k, ds, hs, -, hmarks⟩ := hlooks
  rw [hs, List.mem_append] at hmem
  rcases hmem with hsign | hdigit
  · exact absurd (List.eq_of_mem_replicate hsign) (by decide)
  · exact absurd (hmarks 'T' hdigit) (by decide)

section
variable {w : WrittenTime} (h : w.Fits)
include h

theorem date?_text :
    Iso.date? w.text.toList
      = some (.day w.date.year w.date.month w.date.day, 'T' :: w.clockText) := by
  have hmonth : Iso.monthDate? w.text.toList
      = some (.day w.date.year w.date.month w.date.day, 'T' :: w.clockText) := by
    rw [toList_text]
    simp [Iso.monthDate?, Iso.digits?_four h.year, Iso.digits?_two h.month, Iso.digits?_two h.day,
      Iso.skip]
  rw [Iso.date?, hmonth]
  rfl

theorem clock?_text :
    ∃ offset, Iso.clock? w.clockText = some ⟨w.hour, w.minute, w.second, 0, offset⟩ ∧
      offset.getD 0 = w.zone.seconds := by
  obtain ⟨offset, hzone, hoffset⟩ := Iso.afterSecond?_text h.zone
    ⟨w.hour, w.minute, w.second, 0, none⟩ rfl
  refine ⟨offset, ?_, hoffset⟩
  have hhour : w.hour ≤ 99 := h.hour.trans (by decide)
  have hminute : w.minute ≤ 99 := h.minute.trans (by decide)
  have hsecond : w.second ≤ 99 := h.second.trans (by decide)
  have hlength := length_padded Nat.two_pos (Nat.lt_succ_of_le hhour)
  have hstart := Iso.startsZone_padded Nat.two_pos (Nat.lt_succ_of_le hhour)
  have hafterMinute : Iso.afterMinute? true ⟨w.hour, w.minute, 0, 0, none⟩
      (':' :: ((padded 2 w.second).toList ++ w.zone.text.toList))
      = some ⟨w.hour, w.minute, w.second, 0, offset⟩ := by
    simp [Iso.afterMinute?, Iso.startsZone, Iso.skip, Iso.digits?_two hsecond, hzone]
  have hafterHour : Iso.afterHour? ⟨w.hour, 0, 0, 0, none⟩
      (':' :: ((padded 2 w.minute).toList ++
        ':' :: ((padded 2 w.second).toList ++ w.zone.text.toList)))
      = some ⟨w.hour, w.minute, w.second, 0, offset⟩ := by
    simp [Iso.afterHour?, Iso.startsZone, Iso.skip, Iso.digits?_two hminute, hafterMinute]
  have hlong : ¬ w.clockText.length < 2 := by
    rw [clockText, List.length_append, hlength]
    omega
  rw [Iso.clock?, if_neg hlong, clockText, hstart, if_neg Bool.false_ne_true]
  simp [Iso.digits?_two hhour, hafterHour]

/-- **The instant of a written time**, if its date is one of the calendar. -/
theorem read?_text :
    Iso.read? w.text.toList = if w.date.IsDate then some (w.seconds * 1000000) else none := by
  obtain ⟨offset, hclock, hoffset⟩ := clock?_text h
  have hnumber : (Iso.DateForm.day w.date.year w.date.month w.date.day).number?
      = if w.date.IsDate then some w.date.number else none := by
    show ofYearMonthDay? w.date.year w.date.month w.date.day = _
    split
    · rename_i hdate
      exact ofYearMonthDay?_eq_some_iff.2 ⟨hdate, rfl⟩
    · rename_i hdate
      rw [Option.eq_none_iff_forall_ne_some]
      exact fun number hsome => hdate (ofYearMonthDay?_eq_some_iff.1 hsome).1
  have hhour := h.hour
  have hinstant : Iso.instant? w.date.number ⟨w.hour, w.minute, w.second, 0, offset⟩
      = some (w.seconds * 1000000) := by
    have hnot : w.hour ≠ 24 := by omega
    simp only [Iso.instant?, hnot, hhour, h.minute, h.second, hoffset, instantOf, seconds,
      if_false, if_true, and_self, Option.some.injEq]
    push_cast
    ring
  rw [Iso.read?, date?_text h]
  simp only [Option.bind_eq_bind, Option.bind_some, hnumber]
  split
  · simp [hclock, hinstant]
  · rfl

end

end WrittenTime

/-! ## Seconds of the calendar -/

theorem daysInMonth_le (year month : Nat) : daysInMonth year month ≤ 31 := by
  unfold daysInMonth
  split <;> try split
  all_goals omega

theorem ZoneMark.IsZone.seconds_bounds {zone : ZoneMark} (h : zone.IsZone) :
    -86400 < zone.seconds ∧ zone.seconds < 86400 := by
  cases zone with
  | absent => decide
  | zulu capital => cases capital <;> decide
  | offset west hours minutes =>
    obtain ⟨hhours, hminutes⟩ := h
    cases west <;> simp only [ZoneMark.seconds, if_true, Bool.false_eq_true, if_false] <;> omega

namespace WrittenTime

theorem natAbs_lt {w : WrittenTime} (h : w.Fits) (hdate : w.date.IsDate) :
    (w.seconds * 1000000).natAbs < 2 ^ 38 * 1000000 := by
  have hfirst : dayNumber 1 1 1 = -719162 := by decide
  have hlast : lastDay = 2932896 := by decide
  obtain ⟨hlow, hhigh⟩ := Date.number_bounds hdate
  obtain ⟨hwest, heast⟩ := h.zone.seconds_bounds
  have hhour := h.hour
  have hminute := h.minute
  have hsecond := h.second
  rw [hfirst] at hlow
  rw [hlast] at hhigh
  unfold seconds
  omega

/-- A number of epoch seconds as a date and time of day in a zone. -/
def ofSeconds (n : Int) (zone : ZoneMark) : WrittenTime :=
  let time := n + zone.seconds
  ⟨Date.ofNumber (time / 86400), (time % 86400 / 3600).toNat, (time % 3600 / 60).toNat,
    (time % 60).toNat, zone⟩

/-- **Every second** whose day in the zone is one of the calendar can be written in it. -/
theorem ofSeconds_spec {n : Int} {zone : ZoneMark} (hzone : zone.IsZone)
    (hfirst : dayNumber 1 1 1 ≤ (n + zone.seconds) / 86400)
    (hlast : (n + zone.seconds) / 86400 ≤ lastDay) :
    (ofSeconds n zone).Fits ∧ (ofSeconds n zone).date.IsDate ∧ (ofSeconds n zone).seconds = n := by
  obtain ⟨hdate, hnumber⟩ := Date.ofNumber_spec hfirst hlast
  have hday := hdate.day.2.trans (daysInMonth_le _ _)
  refine ⟨⟨hdate.year.2, hdate.month.2.trans (by decide), hday.trans (by decide), ?_, ?_, ?_,
    hzone⟩, hdate, ?_⟩
  · simp only [ofSeconds]
    omega
  · simp only [ofSeconds]
    omega
  · simp only [ofSeconds]
    omega
  · simp only [seconds, ofSeconds, hnumber]
    omega

end WrittenTime

end EventCalendar.Time

namespace EventCalendar.Parameters

open Time (WrittenTime ZoneMark Date dayNumber lastDay)

/-- **Decimal notation** is read as the integer. -/
theorem readTimestampText_decimal {n : Int}
    (h : (Nat.toDigits 10 n.natAbs).length ≤ Text.digitLimit) (name : String) :
    readTimestampText (Text.decimal n).toList name = .ok n := by
  have hmarks : ∀ c ∈ Nat.toDigits 10 n.natAbs, Text.isDigitMark c = true := fun _ hc =>
    Text.isDigitMark_of_mem_toDigits hc
  have htrim : Text.trim (Text.decimal n).toList = (Text.decimal n).toList := by
    rw [Text.toList_decimal, Text.trim_minus hmarks]
  have hlooks : looksLikeSeconds (Text.decimal n).toList = true :=
    looksLikeSeconds_iff.2 ⟨_, _, Text.toList_decimal n, Nat.toDigits_ne_nil, hmarks⟩
  simp only [readTimestampText, htrim, hlooks, if_true, Text.readInteger_decimal h]

/-- **A written time** is read as its seconds, or is invalid if its date is none. -/
theorem readTimestampText_text {w : WrittenTime} (h : w.Fits) (name : String) :
    readTimestampText w.text.toList name = if w.date.IsDate then .ok w.seconds
      else .error (.invalid name (name ++ " must be epoch seconds or an RFC3339 timestamp")) := by
  have htrim : Text.trim w.text.toList = w.text.toList :=
    Text.trimBy_of_forall w.isBlank_of_mem_text
  simp only [readTimestampText, htrim, WrittenTime.looksLikeSeconds_text, WrittenTime.read?_text h]
  by_cases hdate : w.date.IsDate
  · simp [hdate, Time.epochSeconds_whole (WrittenTime.natAbs_lt h hdate)]
  · simp [hdate]

/-- **Both notations of a timestamp** are read as the same seconds. An integer of no more digits
than are read is read from its decimal notation. A date and time with any mark of a zone is read as
the seconds from 1970-01-01T00:00:00 UTC on if the date is one of the calendar, in which the next
date has the next number, and is invalid otherwise. So every number of seconds whose date in a zone
is one of the calendar is read from both of its notations. -/
theorem readTimestamp_notations (name : String) :
    (∀ n : Int, (Nat.toDigits 10 n.natAbs).length ≤ Text.digitLimit →
      readTimestamp (.text (Text.decimal n)) name = .ok n) ∧
    (∀ w : WrittenTime, w.Fits → readTimestamp (.text w.text) name = if w.date.IsDate
      then .ok (86400 * w.date.number + 3600 * w.hour + 60 * w.minute + w.second - w.zone.seconds)
      else .error (.invalid name (name ++ " must be epoch seconds or an RFC3339 timestamp"))) ∧
    (Date.mk 1970 1 1).number = 0 ∧
    (∀ d : Date, d.IsDate → d.next.number = d.number + 1) ∧
    ∀ (n : Int) (zone : ZoneMark), zone.IsZone → dayNumber 1 1 1 ≤ (n + zone.seconds) / 86400 →
      (n + zone.seconds) / 86400 ≤ lastDay →
      (WrittenTime.ofSeconds n zone).zone = zone ∧ (WrittenTime.ofSeconds n zone).seconds = n ∧
        readTimestamp (.text (WrittenTime.ofSeconds n zone).text) name = .ok n ∧
        readTimestamp (.text (Text.decimal n)) name = .ok n := by
  refine ⟨fun n h => readTimestampText_decimal h name, fun w h => readTimestampText_text h name,
    Time.dayNumber_epoch, fun d h => Date.number_next h, fun n zone hzone hfirst hlast => ?_⟩
  obtain ⟨hfits, hdate, hseconds⟩ := WrittenTime.ofSeconds_spec hzone hfirst hlast
  have hbound := WrittenTime.natAbs_lt hfits hdate
  rw [hseconds] at hbound
  refine ⟨rfl, hseconds, (readTimestampText_text hfits name).trans ?_,
    readTimestampText_decimal ?_ name⟩
  · rw [if_pos hdate, hseconds]
  · refine ((Nat.length_toDigits_le_iff (k := 12) (by decide) (by decide)).2 ?_).trans (by decide)
    omega

/-- A leap day, written in a zone east of UTC, and the second before the epoch, in one west of it.
-/
theorem readTimestamp_notations_of_leap_day :
    (WrittenTime.mk ⟨2024, 2, 29⟩ 12 30 0 (.offset false 1 0)).text = "2024-02-29T12:30:00+01:00" ∧
      readTimestamp (.text "2024-02-29T12:30:00+01:00") "timeStart" = .ok 1709206200 ∧
      readTimestamp (.text "1709206200") "timeStart" = .ok 1709206200 ∧
      readTimestamp (.text (WrittenTime.ofSeconds (-1) (.offset true 0 30)).text) "timeStart"
        = .ok (-1) := by
  obtain ⟨hdecimal, hwritten, -, -, hseconds⟩ := readTimestamp_notations "timeStart"
  have htext : (WrittenTime.mk ⟨2024, 2, 29⟩ 12 30 0 (.offset false 1 0)).text
      = "2024-02-29T12:30:00+01:00" := by decide
  refine ⟨htext, ?_, hdecimal 1709206200 (by decide),
    (hseconds (-1) (.offset true 0 30) (by decide) (by decide) (by decide)).2.2.1⟩
  rw [← htext, hwritten _ (by decide), if_pos (by decide)]
  decide

end EventCalendar.Parameters
