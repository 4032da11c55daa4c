import EventCalendar.Text.Digit
import EventCalendar.Time.Moment

/-!
# Dates and times in ISO text

A text is read in two steps: the longest date that stands at its beginning, then, after one
separator of any kind, a time of day with an optional zone. Every group of digits has a fixed width.
A date is a year, a month of a year or a day, by month, by week or by day of the year; `2024-13-01`
is a date by its form and then no date of the calendar.

Only these texts are read here. Lenient readers also take fields that are short or have a sign, as
in `2024-01-01T12:3`.
-/

set_option autoImplicit false

namespace EventCalendar.Time.Iso

/-- A date as it is written. -/
inductive DateForm
  | day (year month day : Nat)
  | week (year week day : Nat)
  | yearDay (year day : Nat)
  deriving DecidableEq, Repr

/-- The day number of a written date, if it is a date of the calendar. -/
def DateForm.number? : DateForm → Option Int
  | .day y m d => ofYearMonthDay? y m d
  | .week y w d => ofWeek? y w d
  | .yearDay y d => ofYearDay? y d

def digits? : Nat → List Char → Option (Nat × List Char)
  | 0, s => some (0, s)
  | _ + 1, [] => none
  | count + 1, c :: rest => do
    let d ← Text.asciiDigit? c
    let (n, rest) ← digits? count rest
    pure (d * Nat.pow 10 count + n, rest)

def skip (separator : Char) : List Char → Bool × List Char
  | c :: rest => if c = separator then (true, rest) else (false, c :: rest)
  | [] => (false, [])

/-- A year, a year and a month (each to the end of the text), or a date by month and day. -/
def monthDate? (s : List Char) : Option (DateForm × List Char) := do
  let (year, rest) ← digits? 4 s
  if rest.isEmpty then pure (.day year 1 1, [])
  else
    let (dashed, rest) := skip '-' rest
    let (month, rest) ← digits? 2 rest
    if rest.isEmpty then (if dashed then pure (.day year month 1, []) else none)
    else
      let (dashed', rest) := skip '-' rest
      if dashed' != dashed then none
      else
        let (day, rest) ← digits? 2 rest
        pure (.day year month day, rest)

/-- A date by week or by day of the year. A week without a day ends the text. -/
def ordinalDate? (s : List Char) : Option (DateForm × List Char) := do
  let (year, rest) ← digits? 4 s
  let (dashed, rest) := skip '-' rest
  match rest with
  | 'W' :: rest =>
    let (week, rest) ← digits? 2 rest
    if rest.isEmpty then pure (.week year week 1, [])
    else
      let (dashed', rest) := skip '-' rest
      if dashed' != dashed then none
      else
        let (day, rest) ← digits? 1 rest
        pure (.week year week day, rest)
  | rest =>
    let (day, rest) ← digits? 3 rest
    pure (.yearDay year day, rest)

/-- The date at the beginning of a text: by month if it has that form, else by week or by day of
the year. -/
def date? (s : List Char) : Option (DateForm × List Char) := (monthDate? s).or (ordinalDate? s)

/-- Hours and minutes with or without a colon between, in seconds. Minutes may be missing, and the
text ends after them. -/
def zoneLength? (s : List Char) : Option Nat := do
  let (hours, rest) ← digits? 2 s
  let (minutes, rest) ← (if rest.isEmpty then some (0, []) else digits? 2 (skip ':' rest).2)
  if rest.isEmpty && hours ≤ 23 && minutes ≤ 59 then some (hours * 3600 + minutes * 60) else none

/-- The offset of a zone in seconds: `Z`, or a sign with hours and minutes. The whole text is the
zone. -/
def zone? : List Char → Option Int
  | ['Z'] => some 0
  | ['z'] => some 0
  | '-' :: rest => (zoneLength? rest).map fun seconds : Nat => -(seconds : Int)
  | '+' :: rest => (zoneLength? rest).map fun seconds : Nat => (seconds : Int)
  | _ => none

/-- A time of day as it is written; the offset is in seconds. -/
structure ClockForm where
  hour : Nat
  minute : Nat
  second : Nat
  microsecond : Nat
  offset : Option Int
  deriving DecidableEq, Repr

def startsZone : List Char → Bool
  | c :: _ => c == '-' || c == '+' || c == 'Z' || c == 'z'
  | [] => false

/-- The end of a time of day: nothing, or a zone. -/
def clockEnd? (clock : ClockForm) (s : List Char) : Option ClockForm :=
  if s.isEmpty then some clock
  else if startsZone s then (zone? s).map fun z => { clock with offset := some z }
  else none

/-- A fraction of a second, of which six digits count. -/
def fraction? (s : List Char) : Option (Nat × List Char) :=
  match s with
  | mark :: rest =>
    let ds := (rest.takeWhile Char.isDigit).filterMap Text.asciiDigit?
    if (mark = '.' ∨ mark = ',') ∧ !ds.isEmpty then
      let kept := ds.take 6
      some (kept.foldl (fun n d => 10 * n + d) 0 * Nat.pow 10 (6 - kept.length),
        rest.dropWhile Char.isDigit)
    else none
  | [] => none

def afterSecond? (clock : ClockForm) (s : List Char) : Option ClockForm :=
  match fraction? s with
  | some (microsecond, rest) => clockEnd? { clock with microsecond } rest
  | none => clockEnd? clock s

/-- What may follow the minutes: the seconds, with a colon iff one stood before the minutes. -/
def afterMinute? (coloned : Bool) (clock : ClockForm) (s : List Char) : Option ClockForm :=
  if s.isEmpty || startsZone s then clockEnd? clock s
  else do
    let rest ← (match coloned, skip ':' s with
      | true, (true, rest) => some rest
      | true, (false, _) => none
      | false, _ => some s)
    let (second, rest) ← digits? 2 rest
    afterSecond? { clock with second } rest

/-- What may follow the hour. -/
def afterHour? (clock : ClockForm) (s : List Char) : Option ClockForm :=
  if s.isEmpty || startsZone s then clockEnd? clock s
  else do
    let (coloned, rest) := skip ':' s
    let (minute, rest) ← digits? 2 rest
    afterMinute? coloned { clock with minute } rest

/-- A time of day. It may consist of a zone alone. -/
def clock? (s : List Char) : Option ClockForm :=
  let midnight : ClockForm := ⟨0, 0, 0, 0, none⟩
  if s.length < 2 then none
  else if startsZone s then clockEnd? midnight s
  else do
    let (hour, rest) ← digits? 2 s
    afterHour? { midnight with hour } rest

/-- The instant of a day and a time of day. Hour 24 stands for the midnight that ends the day. -/
def instant? (day : Int) (clock : ClockForm) : Option Int :=
  let offset := clock.offset.getD 0 * 1000000
  if clock.hour = 24 then
    if clock.minute = 0 ∧ clock.second = 0 ∧ clock.microsecond = 0 ∧ day + 1 ≤ lastDay then
      some (instantOf (day + 1) 0 0 offset)
    else none
  else if clock.hour ≤ 23 ∧ clock.minute ≤ 59 ∧ clock.second ≤ 59 then
    some (instantOf day (clock.hour * 3600 + clock.minute * 60 + clock.second : Nat)
      clock.microsecond offset)
  else none

/-- The instant that an ISO text stands for. -/
def read? (s : List Char) : Option Int := do
  let (form, rest) ← date? s
  let day ← form.number?
  match rest with
  | [] => instant? day ⟨0, 0, 0, 0, none⟩
  | separator :: time =>
    if separator.toNat < 128 then do
      let clock ← clock? time
      instant? day clock
    else none

end EventCalendar.Time.Iso
