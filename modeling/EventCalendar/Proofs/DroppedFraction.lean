import EventCalendar.Proofs.WrittenTime

/-!
# Fractions of a second

An instant at or after the epoch loses its fraction, but for the last microseconds of a second in
the far future, which round up:

* `Iso.clock?_inRange`, `Iso.number?_bounds`: what is read of a text lies within its range.
* `Iso.read?_inCalendar`: **the instants of texts** are those of the calendar.
* `seconds_eq_floor_iff`: **when the fraction is dropped**, for moments and for texts.
-/

set_option autoImplicit false

namespace EventCalendar.Text

theorem asciiDigit?_lt {c : Char} {d : Nat} (h : asciiDigit? c = some d) : d < 10 := by
  unfold asciiDigit? at h
  split at h
  · rename_i hrange
    have hle : c.toNat ≤ 57 := hrange.2
    cases h
    omega
  · cases h

theorem ofDigits_lt {ds : List Nat} (h : ∀ d ∈ ds, d < 10) : ofDigits ds < 10 ^ ds.length := by
  induction ds using List.reverseRecOn with
  | nil => decide
  | append_singleton ds d ih =>
    have hd := h d (by simp)
    have hds := ih fun d' hd' => h d' (by simp [hd'])
    rw [ofDigits, List.foldl_append, ← ofDigits, List.length_append, List.length_singleton, pow_succ,
      List.foldl_cons, List.foldl_nil]
    omega

end EventCalendar.Text

namespace EventCalendar.Time

namespace Iso

/-! ## Times of day -/

/-- The fraction is less than a second, and the offset less than a day. -/
structure ClockForm.InRange (clock : ClockForm) : Prop where
  microsecond : clock.microsecond < 1000000
  offset : |clock.offset.getD 0| < 86400

theorem zoneLength?_lt {s : List Char} {seconds : Nat} (h : zoneLength? s = some seconds) :
    seconds < 86400 := by
  simp only [zoneLength?, Option.bind_eq_bind, Option.bind_eq_some_iff] at h
  obtain ⟨⟨hours, more⟩, -, ⟨minutes, rest⟩, -, h⟩ := h
  dsimp only at h
  split at h
  · rename_i hrange
    simp only [Bool.and_eq_true, decide_eq_true_eq] at hrange
    cases h
    omega
  · cases h

theorem zone?_bounds {s : List Char} {seconds : Int} (h : zone? s = some seconds) :
    |seconds| < 86400 := by
  rw [abs_lt]
  unfold zone? at h
  split at h
  · cases h
    decide
  · cases h
    decide
  · obtain ⟨length, hlength, rfl⟩ := Option.map_eq_some_iff.1 h
    have := zoneLength?_lt hlength
    omega
  · obtain ⟨length, hlength, rfl⟩ := Option.map_eq_some_iff.1 h
    have := zoneLength?_lt hlength
    omega
  · cases h

theorem fraction?_lt {s rest : List Char} {microsecond : Nat}
    (h : fraction? s = some (microsecond, rest)) : microsecond < 1000000 := by
  unfold fraction? at h
  split at h
  · rename_i mark text
    dsimp only at h
    split at h
    · generalize hkept : List.take 6 _ = kept at h
      have hlength : kept.length ≤ 6 := hkept ▸ List.length_take_le 6 _
      have hdigits : ∀ d ∈ kept, d < 10 := by
        intro d hd
        have hd' := List.mem_of_mem_take (hkept ▸ hd)
        obtain ⟨c, -, hc⟩ := List.mem_filterMap.1 hd'
        exact Text.asciiDigit?_lt hc
      cases h
      calc Text.ofDigits kept * 10 ^ (6 - kept.length)
          < 10 ^ kept.length * 10 ^ (6 - kept.length) :=
            Nat.mul_lt_mul_of_pos_right (Text.ofDigits_lt hdigits) (by positivity)
        _ = 1000000 := by rw [← pow_add, Nat.add_sub_cancel' hlength]; rfl
    · cases h
  · cases h

section
variable {clock read : ClockForm} {s : List Char}

theorem clockEnd?_inRange (hclock : clock.InRange) (h : clockEnd? clock s = some read) :
    read.InRange := by
  unfold clockEnd? at h
  split at h
  · cases h
    exact hclock
  · split at h
    · obtain ⟨seconds, hseconds, rfl⟩ := Option.map_eq_some_iff.1 h
      exact ⟨hclock.microsecond, zone?_bounds hseconds⟩
    · cases h

theorem afterSecond?_inRange (hclock : clock.InRange) (h : afterSecond? clock s = some read) :
    read.InRange := by
  unfold afterSecond? at h
  split at h
  · rename_i microsecond rest hfraction
    have hnext : ClockForm.InRange { clock with microsecond } :=
      ⟨fraction?_lt hfraction, hclock.offset⟩
    exact clockEnd?_inRange hnext h
  · exact clockEnd?_inRange hclock h

theorem afterMinute?_inRange {coloned : Bool} (hclock : clock.InRange)
    (h : afterMinute? coloned clock s = some read) : read.InRange := by
  unfold afterMinute? at h
  split at h
  · exact clockEnd?_inRange hclock h
  · simp only [Option.bind_eq_bind, Option.bind_eq_some_iff] at h
    obtain ⟨rest, -, ⟨second, rest⟩, -, h⟩ := h
    have hnext : ClockForm.InRange { clock with second } := ⟨hclock.microsecond, hclock.offset⟩
    exact afterSecond?_inRange hnext h

theorem afterHour?_inRange (hclock : clock.InRange) (h : afterHour? clock s = some read) :
    read.InRange := by
  unfold afterHour? at h
  split at h
  · exact clockEnd?_inRange hclock h
  · simp only [Option.bind_eq_bind, Option.bind_eq_some_iff] at h
    obtain ⟨⟨minute, rest⟩, -, h⟩ := h
    have hnext : ClockForm.InRange { clock with minute } := ⟨hclock.microsecond, hclock.offset⟩
    exact afterMinute?_inRange hnext h

/-- **What is read of a time of day** lies within its range. -/
theorem clock?_inRange (h : clock? s = some read) : read.InRange := by
  have hmidnight : (ClockForm.mk 0 0 0 0 none).InRange := ⟨by decide, by decide⟩
  unfold clock? at h
  dsimp only at h
  split at h
  · cases h
  · split at h
    · exact clockEnd?_inRange hmidnight h
    · simp only [Option.bind_eq_bind, Option.bind_eq_some_iff] at h
      obtain ⟨⟨hour, rest⟩, -, h⟩ := h
      have hnext : (ClockForm.mk hour 0 0 0 none).InRange :=
        ⟨hmidnight.microsecond, hmidnight.offset⟩
      exact afterHour?_inRange hnext h

end

/-! ## Dates -/

theorem ofYearDay?_bounds {year day : Nat} {number : Int} (h : ofYearDay? year day = some number) :
    dayNumber 1 1 1 ≤ number ∧ number ≤ lastDay := by
  unfold ofYearDay? at h
  split at h
  · rename_i hcheck
    simp only [isYear, Bool.and_eq_true, decide_eq_true_eq] at hcheck
    obtain ⟨⟨⟨hyear, hyear'⟩, hday⟩, hday'⟩ := hcheck
    have hend : daysBeforeYear (year + 1) ≤ daysBeforeYear 10000 :=
      daysBeforeYear_mono (Nat.succ_le_succ hyear')
    rw [daysBeforeYear_succ hyear] at hend
    have hlast : lastDay = (daysBeforeYear 10000 : Nat) - 1 - (epochDays : Int) := by decide
    cases h
    rw [hlast]
    simp only [dayNumber, daysBeforeYear_one, daysBeforeMonth_one]
    omega
  · cases h

/-- The first week of the first year begins with its first day. -/
theorem ofWeek?_bounds {year week day : Nat} {number : Int}
    (h : ofWeek? year week day = some number) :
    dayNumber 1 1 1 ≤ number ∧ number ≤ lastDay := by
  simp only [ofWeek?] at h
  split at h
  · rename_i hcheck
    simp only [isYear, Bool.and_eq_true, decide_eq_true_eq] at hcheck
    split at h
    · rename_i hlast
      have hfirst : dayNumber 1 1 1 = -719162 := by decide
      have hjanuary : -719159 ≤ dayNumber year 1 4 := by
        simp only [dayNumber, daysBeforeMonth_one, epochDays]
        omega
      cases h
      refine ⟨?_, hlast⟩
      rw [hfirst, weekday]
      omega
    · cases h
  · cases h

theorem DateForm.number?_bounds {form : DateForm} {day : Int} (h : form.number? = some day) :
    dayNumber 1 1 1 ≤ day ∧ day ≤ lastDay := by
  cases form with
  | day year month day =>
    obtain ⟨hdate, rfl⟩ := ofYearMonthDay?_eq_some_iff.1 h
    exact Date.number_bounds hdate
  | week year week day => exact ofWeek?_bounds h
  | yearDay year day => exact ofYearDay?_bounds h

/-! ## Instants -/

theorem instant?_inCalendar {day : Int} {clock : ClockForm} {i : Int}
    (hday : dayNumber 1 1 1 ≤ day ∧ day ≤ lastDay) (hclock : clock.InRange)
    (h : instant? day clock = some i) : InCalendar i := by
  obtain ⟨hfirst, hlast⟩ := hday
  have hmicrosecond := hclock.microsecond
  obtain ⟨hwest, heast⟩ := abs_lt.1 hclock.offset
  unfold InCalendar
  simp only [instant?] at h
  split at h
  · split at h
    · rename_i hmidnight
      obtain ⟨-, -, -, hnext⟩ := hmidnight
      cases h
      rw [instantOf, dayLength]
      constructor <;> omega
    · cases h
  · split at h
    · rename_i htime
      obtain ⟨hhour, hminute, hsecond⟩ := htime
      cases h
      rw [instantOf, dayLength]
      push_cast
      constructor <;> omega
    · cases h

/-- **The instants of texts** are those of the calendar. -/
theorem read?_inCalendar {s : List Char} {i : Int} (h : read? s = some i) : InCalendar i := by
  simp only [read?, Option.bind_eq_bind, Option.bind_eq_some_iff] at h
  obtain ⟨⟨form, rest⟩, -, day, hday, h⟩ := h
  have hbounds := DateForm.number?_bounds hday
  split at h
  · exact instant?_inCalendar hbounds ⟨by decide, by decide⟩ h
  · split at h
    · obtain ⟨clock, hclock, h⟩ := Option.bind_eq_some_iff.1 h
      exact instant?_inCalendar hbounds (clock?_inRange hclock) h
    · cases h

end Iso

/-- At or after the epoch the fraction is dropped, or the seconds round up to the next one. -/
theorem epochSeconds_floor {i : Int} (hi : i.natAbs < 2 ^ 38 * 1000000) (h0 : 0 ≤ i) :
    (epochSeconds i = ⌊(i : ℚ) / 1000000⌋ ↔ ¬ RoundsUp i) ∧
      (RoundsUp i → epochSeconds i = ⌊(i : ℚ) / 1000000⌋ + 1) := by
  have hfloor := epochSeconds_eq_floor_iff hi h0
  rw [floor_seconds]
  exact ⟨hfloor, fun hup => (epochSeconds_eq_or hi h0).resolve_left fun h => hfloor.1 h hup⟩

end EventCalendar.Time

namespace EventCalendar.Parameters

open Time (Moment RoundsUp)

theorem readTimestampText_of_read? {s : List Char} {i : Int}
    (hlooks : looksLikeSeconds (Text.trim s) = false)
    (h : Time.Iso.read? (Text.trim s) = some i) (name : String) :
    readTimestampText s name = .ok (Time.epochSeconds i) := by
  simp only [readTimestampText, hlooks, h]
  rfl

/-- **When the fraction is dropped.** The seconds of a moment at or after the epoch are the greatest
ones not after it, unless what is missing to the next second is half the distance of two doubles at
most; then they are the next ones. Before `2^34` seconds the fraction is always dropped. The same
holds of a timestamp that is read from a text. -/
theorem seconds_eq_floor_iff {t : Moment} (ht : t.IsValid) (h0 : 0 ≤ t.instant) :
    (t.seconds = ⌊(t.instant : ℚ) / 1000000⌋ ↔ ¬ RoundsUp t.instant) ∧
    (RoundsUp t.instant → t.seconds = ⌊(t.instant : ℚ) / 1000000⌋ + 1) ∧
    (t.instant < 2 ^ 34 * 1000000 → ¬ RoundsUp t.instant) ∧
    ∀ (text name : String) (i : Int), looksLikeSeconds (Text.trim text.toList) = false →
      Time.Iso.read? (Text.trim text.toList) = some i → 0 ≤ i →
      (readTimestamp (.text text) name = .ok ⌊(i : ℚ) / 1000000⌋ ↔ ¬ RoundsUp i) ∧
        (RoundsUp i → readTimestamp (.text text) name = .ok (⌊(i : ℚ) / 1000000⌋ + 1)) ∧
        (i < 2 ^ 34 * 1000000 → ¬ RoundsUp i) := by
  obtain ⟨hdown, hup⟩ := Time.epochSeconds_floor ht.inCalendar.natAbs_lt h0
  refine ⟨hdown, hup, Time.not_roundsUp h0, fun text name i hlooks hread h0 => ?_⟩
  have hbound := (Time.Iso.read?_inCalendar hread).natAbs_lt
  have hseconds : readTimestamp (.text text) name = .ok (Time.epochSeconds i) :=
    readTimestampText_of_read? hlooks hread name
  obtain ⟨hdown, hup⟩ := Time.epochSeconds_floor hbound h0
  rw [hseconds, Except.ok.injEq, Except.ok.injEq]
  exact ⟨hdown, hup, Time.not_roundsUp h0⟩

/-- Of two moments in the last microsecond of a second, the later one rounds up. -/
theorem seconds_eq_floor_iff_of_last_microsecond :
    (Moment.mk 2024 2 29 12 30 0 999999 none).seconds
        = ⌊((Moment.mk 2024 2 29 12 30 0 999999 none).instant : ℚ) / 1000000⌋ ∧
      (Moment.mk 2600 1 1 0 0 0 999999 none).seconds
        = ⌊((Moment.mk 2600 1 1 0 0 0 999999 none).instant : ℚ) / 1000000⌋ + 1 ∧
      readTimestamp (.text "2600-01-01T00:00:00.999999Z") "timeEnd"
        = .ok (⌊((19880899200999999 : Int) : ℚ) / 1000000⌋ + 1) := by
  have hearly : (Moment.mk 2024 2 29 12 30 0 999999 none).IsValid := by decide
  have hlate : (Moment.mk 2600 1 1 0 0 0 999999 none).IsValid := by decide
  obtain ⟨hdown, -, hnever, -⟩ := seconds_eq_floor_iff hearly (by decide)
  obtain ⟨-, hup, -, htexts⟩ := seconds_eq_floor_iff hlate (by decide)
  exact ⟨hdown.2 (hnever (by decide)), hup (by decide),
    (htexts _ "timeEnd" 19880899200999999 (by decide) (by decide) (by decide)).2.1 (by decide)⟩

/-- The last microsecond of the calendar is read as a second that lies beyond it. -/
theorem seconds_of_last_moment :
    (Moment.mk 9999 12 31 23 59 59 999999 none).IsValid ∧
      (Moment.mk 9999 12 31 23 59 59 999999 none).seconds = 253402300800 ∧
      ⌊((Moment.mk 9999 12 31 23 59 59 999999 none).instant : ℚ) / 1000000⌋ = 253402300799 ∧
      readTimestamp (.text "9999-12-31T23:59:59.999999Z") "timeEnd" = .ok 253402300800 := by
  refine ⟨by decide, by decide, ?_, by decide⟩
  rw [Time.floor_seconds]
  decide

end EventCalendar.Parameters
