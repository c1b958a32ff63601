set_option autoImplicit false

/-!
# Dates and times of day

Dates are those of the Gregorian calendar in the years one to 9999. A moment is a date with a time
of day, counted in microseconds, and may state how far its clock is from universal time. `Date.make`
and `Moment.make` refuse fields out of range, and the first such field is the fault.

A date or moment has a plain form, as in `2001-12-14 21:59:43`, and a display form that names its
fields.
-/

namespace StructAtlas.Calendar

/-- Why fields are no date or no moment. -/
inductive Fault where
  | year (n : Nat)
  | month
  | day
  | hour
  | minute
  | second
  | offset (seconds : Int)
deriving Repr, DecidableEq

/-- A date. -/
structure Date where
  year : Nat
  month : Nat
  day : Nat
deriving Repr, DecidableEq

/-- A time of day. -/
structure Clock where
  hour : Nat
  minute : Nat
  second : Nat
  micro : Nat
deriving Repr, DecidableEq

/-- A date with a time of day. The offset is how many seconds the clock is ahead of universal time,
if that is known. -/
structure Moment where
  date : Date
  clock : Clock
  offset : Option Int
deriving Repr, DecidableEq

/-- A number with leading zeros up to a width. -/
def padded (width n : Nat) : String :=
  let ds := toString n
  String.ofList (List.replicate (width - ds.length) '0') ++ ds

/-- The number of seconds in a day. -/
def secondsOfDay : Int := 86400

/-- The display form of a span of seconds, split into whole days and a rest that is not negative. -/
def displaySpan (seconds : Int) : String :=
  let days := seconds.fdiv secondsOfDay
  let rest := seconds.fmod secondsOfDay
  let fields := (if days == 0 then [] else ["days=" ++ toString days])
    ++ (if rest == 0 then [] else ["seconds=" ++ toString rest])
  "datetime.timedelta(" ++ (if fields.isEmpty then "0" else ", ".intercalate fields) ++ ")"

/-- The message of a fault. -/
def Fault.message : Fault → String
  | .year n => "year " ++ toString n ++ " is out of range"
  | .month => "month must be in 1..12"
  | .day => "day is out of range for month"
  | .hour => "hour must be in 0..23"
  | .minute => "minute must be in 0..59"
  | .second => "second must be in 0..59"
  | .offset seconds =>
    "offset must be a timedelta strictly between -timedelta(hours=24) and timedelta(hours=24), not "
      ++ displaySpan seconds ++ "."

namespace Date

/-- Whether a year has a leap day. -/
def isLeap (year : Nat) : Bool :=
  year % 4 == 0 && (year % 100 != 0 || year % 400 == 0)

/-- The number of days of a month. -/
def daysIn (year month : Nat) : Nat :=
  if month == 2 then if isLeap year then 29 else 28
  else if [4, 6, 9, 11].contains month then 30
  else 31

/-- The date of fields in range. -/
def make (year month day : Nat) : Except Fault Date :=
  if year < 1 || 9999 < year then .error (.year year)
  else if month < 1 || 12 < month then .error .month
  else if day < 1 || daysIn year month < day then .error .day
  else .ok ⟨year, month, day⟩

/-- The number of a day, counted from the first day of year one. -/
def number (d : Date) : Nat :=
  let y := d.year - 1
  let days := (List.range (d.month - 1)).foldl (fun n m => n + daysIn d.year (m + 1)) 0
  y * 365 + y / 4 - y / 100 + y / 400 + days + d.day

/-- The plain form. -/
def text (d : Date) : String :=
  padded 4 d.year ++ "-" ++ padded 2 d.month ++ "-" ++ padded 2 d.day

/-- The fields of a date for display forms. -/
def fields (d : Date) : List Nat :=
  [d.year, d.month, d.day]

/-- The display form. -/
def display (d : Date) : String :=
  "datetime.date(" ++ ", ".intercalate (d.fields.map toString) ++ ")"

end Date

namespace Moment

/-- The moment of fields in range. -/
def make (date : Except Fault Date) (clock : Clock) (offset : Option Int) :
    Except Fault Moment := do
  match offset with
  | some seconds => if secondsOfDay ≤ seconds.natAbs then throw (.offset seconds)
  | none => pure ()
  let date ← date
  if 23 < clock.hour then throw .hour
  if 59 < clock.minute then throw .minute
  if 59 < clock.second then throw .second
  return ⟨date, clock, offset⟩

/-- The microseconds since the beginning of year one, by the clock of the moment. -/
def reading (m : Moment) : Int :=
  let c := m.clock
  (((m.date.number * 24 + c.hour) * 60 + c.minute) * 60 + c.second) * 1000000 + c.micro

/-- Whether two moments are the same. Clocks whose distance from universal time is known are
compared by what they show in universal time; such a moment is never the same as one without. -/
def same (a b : Moment) : Bool :=
  match a.offset, b.offset with
  | none, none => a.reading == b.reading
  | some p, some q => a.reading - p * 1000000 == b.reading - q * 1000000
  | _, _ => false

/-- The plain form of a distance from universal time. -/
def offsetText (seconds : Int) : String :=
  let minutes := seconds.natAbs / 60
  (if seconds < 0 then "-" else "+") ++ padded 2 (minutes / 60) ++ ":" ++ padded 2 (minutes % 60)

/-- The plain form. -/
def text (m : Moment) : String :=
  let c := m.clock
  m.date.text ++ " " ++ padded 2 c.hour ++ ":" ++ padded 2 c.minute ++ ":" ++ padded 2 c.second
    ++ (if c.micro == 0 then "" else "." ++ padded 6 c.micro)
    ++ (m.offset.elim "" offsetText)

/-- The display form of a distance from universal time. -/
def displayOffset (seconds : Int) : String :=
  if seconds == 0 then "datetime.timezone.utc"
  else "datetime.timezone(" ++ displaySpan seconds ++ ")"

/-- The display form. Seconds and microseconds are left out where they are zero up to the end. -/
def display (m : Moment) : String :=
  let c := m.clock
  let small :=
    if c.micro != 0 then [c.second, c.micro] else if c.second != 0 then [c.second] else []
  let fields := (m.date.fields ++ [c.hour, c.minute] ++ small).map toString
  let zone := m.offset.toList.map fun seconds => "tzinfo=" ++ displayOffset seconds
  "datetime.datetime(" ++ ", ".intercalate (fields ++ zone) ++ ")"

end Moment

end StructAtlas.Calendar
