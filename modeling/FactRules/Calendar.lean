/-!
# Dates and times

A `Date` is a day of the Gregorian calendar in the years 1 to 9999, a `TimeOfDay` counts down to
microseconds, and a `DateTime` joins the two and may say how far its clock is ahead of universal
time. Only dates and times that exist can be built: `Date.of?`, `TimeOfDay.of?` and
`UtcOffset.of?` refuse all others. Each has a text that shows it inside a message.
-/

namespace FactRules

/-! ## Dates -/

/-- Whether a year has a leap day: every fourth does, of the full centuries only every fourth. -/
def isLeapYear (year : Nat) : Bool :=
  year % 4 = 0 && (year % 100 ≠ 0 || year % 400 = 0)

/-- The number of days of a month. -/
def daysInMonth (year month : Nat) : Nat :=
  match month with
  | 2 => if isLeapYear year then 29 else 28
  | 4 | 6 | 9 | 11 => 30
  | _ => 31

/-- A month has 28 to 31 days. -/
theorem daysInMonth_bounds (year month : Nat) :
    28 ≤ daysInMonth year month ∧ daysInMonth year month ≤ 31 := by
  unfold daysInMonth
  split
  · split <;> omega
  all_goals omega

/-- A day of the calendar. -/
structure Date where
  year : Nat
  month : Nat
  day : Nat
  year_valid : 1 ≤ year ∧ year ≤ 9999
  month_valid : 1 ≤ month ∧ month ≤ 12
  day_valid : 1 ≤ day ∧ day ≤ daysInMonth year month

namespace Date

/-- The date of a year, a month and a day, if there is one. -/
def of? (year month day : Nat) : Option Date :=
  if h : (1 ≤ year ∧ year ≤ 9999) ∧ (1 ≤ month ∧ month ≤ 12) ∧
      1 ≤ day ∧ day ≤ daysInMonth year month then
    some ⟨year, month, day, h.1, h.2.1, h.2.2⟩
  else none

/-- The year, the month and the day, separated by commas. -/
def fields (date : Date) : String :=
  toString date.year ++ ", " ++ toString date.month ++ ", " ++ toString date.day

/-- The date as it is shown inside a message. -/
def display (date : Date) : String := "datetime.date(" ++ date.fields ++ ")"

end Date

/-! ## Times of day -/

/-- A time of day, without leap seconds. -/
structure TimeOfDay where
  hour : Nat
  minute : Nat
  second : Nat
  microsecond : Nat
  hour_lt : hour < 24
  minute_lt : minute < 60
  second_lt : second < 60
  microsecond_lt : microsecond < 1000000

namespace TimeOfDay

/-- The time of day of its parts, if there is one. -/
def of? (hour minute second microsecond : Nat) : Option TimeOfDay :=
  if h : hour < 24 ∧ minute < 60 ∧ second < 60 ∧ microsecond < 1000000 then
    some ⟨hour, minute, second, microsecond, h.1, h.2.1, h.2.2.1, h.2.2.2⟩
  else none

/-- The hour and the minute, then the second and the microsecond up to the last one that is not
zero, separated by commas. -/
def fields (time : TimeOfDay) : String :=
  let minutes := toString time.hour ++ ", " ++ toString time.minute
  let seconds := minutes ++ ", " ++ toString time.second
  if time.microsecond ≠ 0 then seconds ++ ", " ++ toString time.microsecond
  else if time.second ≠ 0 then seconds
  else minutes

/-- The time of day as it is shown inside a message. -/
def display (time : TimeOfDay) : String := "datetime.time(" ++ time.fields ++ ")"

end TimeOfDay

/-! ## Dates with times -/

/-- How many minutes a clock is ahead of universal time, less than a day either way. -/
structure UtcOffset where
  minutes : Int
  minutes_valid : -1440 < minutes ∧ minutes < 1440

namespace UtcOffset

/-- The offset of a number of minutes, if it is less than a day. -/
def of? (minutes : Int) : Option UtcOffset :=
  if h : -1440 < minutes ∧ minutes < 1440 then some ⟨minutes, h⟩ else none

/-- The clock of universal time. -/
def zero : UtcOffset := ⟨0, by omega⟩

/-- The offset as it is shown inside a message: a clock that is behind is shown as ahead by the
rest of a day, less that day. -/
def display (offset : UtcOffset) : String :=
  let span (days : String) (minutes : Int) :=
    "datetime.timezone(datetime.timedelta(" ++ days ++ "seconds=" ++ toString (60 * minutes) ++ "))"
  if offset.minutes = 0 then "datetime.timezone.utc"
  else if offset.minutes < 0 then span "days=-1, " (offset.minutes + 1440)
  else span "" offset.minutes

end UtcOffset

/-- A date and a time of day, on a clock that is known if there is an offset. -/
structure DateTime where
  date : Date
  time : TimeOfDay
  offset : Option UtcOffset

/-- The date with its time as it is shown inside a message. -/
def DateTime.display (moment : DateTime) : String :=
  let zone :=
    match moment.offset with
    | some offset => ", tzinfo=" ++ offset.display
    | none => ""
  "datetime.datetime(" ++ moment.date.fields ++ ", " ++ moment.time.fields ++ zone ++ ")"

end FactRules
