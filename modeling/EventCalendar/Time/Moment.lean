import EventCalendar.Time.Date
import EventCalendar.Decimal.Binary64

/-!
# Moments and instants

A moment is a date and a time of day with an offset from UTC, or with none, which counts as UTC. It
denotes an instant, a number of microseconds since 1970-01-01T00:00:00 UTC (`Moment.instant`).
Whole seconds come out of an instant through the double nearest to its value in seconds, the
fraction of which is dropped (`epochSeconds`).
-/

set_option autoImplicit false

namespace EventCalendar.Time

/-- A date and a time of day; the offset is in microseconds east of UTC. -/
structure Moment where
  year : Nat
  month : Nat
  day : Nat
  hour : Nat
  minute : Nat
  second : Nat
  microsecond : Nat
  offset : Option Int
  deriving DecidableEq, Repr

/-- Why there is no such moment. -/
inductive MomentFault
  | year (n : Int)
  | month
  | day
  | hour
  | minute
  | second
  | microsecond
  | offset (length : Int)
  deriving DecidableEq, Repr

def dayLength : Int := 86400000000

/-- A length of time in microseconds, as messages show it: days, seconds and microseconds, of which
only the days may be negative. -/
def lengthText (length : Int) : String :=
  let days := length / dayLength
  let seconds := length % dayLength / 1000000
  let rest := length % 1000000
  let parts := (if days = 0 then [] else ["days=" ++ toString days])
    ++ (if seconds = 0 then [] else ["seconds=" ++ toString seconds])
    ++ (if rest = 0 then [] else ["microseconds=" ++ toString rest])
  "datetime.timedelta(" ++ (if parts.isEmpty then "0" else ", ".intercalate parts) ++ ")"

def MomentFault.message : MomentFault → String
  | .year n => "year " ++ toString n ++ " is out of range"
  | .month => "month must be in 1..12"
  | .day => "day is out of range for month"
  | .hour => "hour must be in 0..23"
  | .minute => "minute must be in 0..59"
  | .second => "second must be in 0..59"
  | .microsecond => "microsecond must be in 0..999999"
  | .offset length =>
    "offset must be a timedelta strictly between -timedelta(hours=24) and timedelta(hours=24), not "
      ++ lengthText length ++ "."

def within (lo hi n : Int) : Bool := lo ≤ n && n ≤ hi

/-- The moment with the given parts; the first part out of range is at fault. -/
def Moment.ofParts (year month day hour minute second microsecond : Int) (offset : Option Int) :
    Except MomentFault Moment :=
  match offset with
  | some length =>
    if within (1 - dayLength) (dayLength - 1) length then parts else .error (.offset length)
  | none => parts
where
  /-- The moment, the offset being in range. -/
  parts : Except MomentFault Moment :=
    if !within 1 9999 year then .error (.year year)
    else if !within 1 12 month then .error .month
    else if !within 1 (daysInMonth year.toNat month.toNat) day then .error .day
    else if !within 0 23 hour then .error .hour
    else if !within 0 59 minute then .error .minute
    else if !within 0 59 second then .error .second
    else if !within 0 999999 microsecond then .error .microsecond
    else .ok ⟨year.toNat, month.toNat, day.toNat, hour.toNat, minute.toNat, second.toNat,
      microsecond.toNat, offset⟩

/-- The moment with the given parts, the offset in whole seconds. -/
def Moment.make (year month day hour minute second microsecond : Int) (offset : Option Int) :
    Except MomentFault Moment :=
  Moment.ofParts year month day hour minute second microsecond (offset.map (· * 1000000))

/-- Microseconds since the epoch, from a day, a time of that day in seconds, the microseconds, and
the offset in microseconds. -/
def instantOf (day seconds microseconds offset : Int) : Int :=
  (day * 86400 + seconds) * 1000000 + microseconds - offset

/-- The instant of a moment; without an offset it counts as UTC. -/
def Moment.instant (t : Moment) : Int :=
  instantOf (dayNumber t.year t.month t.day) (t.hour * 3600 + t.minute * 60 + t.second : Nat)
    t.microsecond (t.offset.getD 0)

/-- Whole seconds of an instant: the double nearest to its seconds, without the fraction. -/
def epochSeconds (instant : Int) : Int := (Binary64.ofRatio instant 1000000).truncate

def Moment.seconds (t : Moment) : Int := epochSeconds t.instant

def padded (width n : Nat) : String :=
  let ds := Nat.toDigits 10 n
  String.ofList (List.replicate (width - ds.length) '0' ++ ds)

/-- The moment as messages show it; seconds and microseconds only where needed. -/
def Moment.text (t : Moment) : String :=
  let parts := [t.year, t.month, t.day, t.hour, t.minute]
    ++ (if t.second = 0 ∧ t.microsecond = 0 then [] else [t.second])
    ++ (if t.microsecond = 0 then [] else [t.microsecond])
  let zone := match t.offset with
    | none => ""
    | some 0 => ", tzinfo=datetime.timezone.utc"
    | some length => ", tzinfo=datetime.timezone(" ++ lengthText length ++ ")"
  "datetime.datetime(" ++ ", ".intercalate (parts.map toString) ++ zone ++ ")"

/-- The date and time with microseconds, as a bound value is stored. -/
def Moment.storedText (t : Moment) : String :=
  padded 4 t.year ++ "-" ++ padded 2 t.month ++ "-" ++ padded 2 t.day ++ " " ++ padded 2 t.hour
    ++ ":" ++ padded 2 t.minute ++ ":" ++ padded 2 t.second ++ "." ++ padded 6 t.microsecond

/-- An offset from UTC as `+hh:mm`, with seconds and microseconds where needed. -/
def offsetText (offset : Int) : String :=
  let seconds := offset.natAbs / 1000000
  let rest := offset.natAbs % 1000000
  (if offset < 0 then "-" else "+") ++ padded 2 (seconds / 3600) ++ ":"
    ++ padded 2 (seconds / 60 % 60)
    ++ (if seconds % 60 = 0 ∧ rest = 0 then "" else ":" ++ padded 2 (seconds % 60))
    ++ (if rest = 0 then "" else "." ++ padded 6 rest)

/-- The date and time with a blank between, microseconds and offset only where given. -/
def Moment.isoText (t : Moment) : String :=
  padded 4 t.year ++ "-" ++ padded 2 t.month ++ "-" ++ padded 2 t.day ++ " " ++ padded 2 t.hour
    ++ ":" ++ padded 2 t.minute ++ ":" ++ padded 2 t.second
    ++ (if t.microsecond = 0 then "" else "." ++ padded 6 t.microsecond)
    ++ (match t.offset with
        | none => ""
        | some length => offsetText length)

/-- Different offsets do not matter: moments of one instant have the same epoch seconds. -/
theorem Moment.seconds_eq_of_instant_eq {a b : Moment} (h : a.instant = b.instant) :
    a.seconds = b.seconds := by simp only [Moment.seconds, h]

end EventCalendar.Time
