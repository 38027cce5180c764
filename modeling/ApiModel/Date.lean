import ApiModel.Decimal.Shortest

/-!
# Dates and timestamps

A document may hold a calendar date or a moment of such a date, with or without the offset of a
time zone. Both have three written forms: the sortable one, with a `T` or a space before the
time, and the literal one that names the fields.
-/

namespace ApiModel

/-- A day of the calendar. -/
structure Date where
  year : Nat
  month : Nat
  day : Nat
  deriving DecidableEq, Repr

/-- A moment of a day, with the offset of its time zone in minutes if it has one. -/
structure Timestamp where
  date : Date
  hour : Nat
  minute : Nat
  second : Nat
  microsecond : Nat
  offset : Option Int
  deriving DecidableEq, Repr

/-- A number with zeros on the left, up to a width. -/
def padded (width n : Nat) : String :=
  String.ofList (Decimal.padZeros width (Nat.toDigits 10 n))

namespace Date

/-- Is the year divisible by four, except for centuries not divisible by four hundred? -/
def isLeapYear (year : Nat) : Bool :=
  year % 4 == 0 && (year % 100 != 0 || year % 400 == 0)

/-- The number of days of a month. -/
def daysIn (year month : Nat) : Nat :=
  if month == 2 then (if isLeapYear year then 29 else 28)
  else if month == 4 || month == 6 || month == 9 || month == 11 then 30
  else 31

/-- A date of the calendar, which begins with the year one. -/
def of? (year month day : Nat) : Option Date :=
  if 1 ≤ year && 1 ≤ month && month ≤ 12 && 1 ≤ day && day ≤ daysIn year month then
    some ⟨year, month, day⟩
  else none

/-- The sortable form: year, month, day. -/
def iso (d : Date) : String :=
  padded 4 d.year ++ "-" ++ padded 2 d.month ++ "-" ++ padded 2 d.day

/-- The form that names the kind of value. -/
def literal (d : Date) : String :=
  "datetime.date(" ++ toString d.year ++ ", " ++ toString d.month ++ ", " ++ toString d.day ++ ")"

end Date

namespace Timestamp

/-- An offset as hours and minutes with a sign. -/
def offsetText (minutes : Int) : String :=
  let n := minutes.natAbs
  (if minutes < 0 then "-" else "+") ++ padded 2 (n / 60) ++ ":" ++ padded 2 (n % 60)

/-- The sortable form, with `mark` between the day and the time. -/
def iso (mark : String) (t : Timestamp) : String :=
  t.date.iso ++ mark ++ padded 2 t.hour ++ ":" ++ padded 2 t.minute ++ ":" ++ padded 2 t.second ++
    (if t.microsecond == 0 then "" else "." ++ padded 6 t.microsecond) ++
    (t.offset.map offsetText).getD ""

/-- An offset in the form that names the kind of value: whole days and the seconds left over. -/
def offsetLiteral (minutes : Int) : String :=
  if minutes == 0 then "datetime.timezone.utc"
  else
    let days := minutes.fdiv 1440
    let seconds := minutes.fmod 1440 * 60
    let parts :=
      (if days == 0 then [] else ["days=" ++ toString days]) ++
        (if seconds == 0 then [] else ["seconds=" ++ toString seconds])
    "datetime.timezone(datetime.timedelta(" ++ ", ".intercalate parts ++ "))"

/-- The form that names the kind of value; seconds and their fractions only where needed. -/
def literal (t : Timestamp) : String :=
  let fields := [t.date.year, t.date.month, t.date.day, t.hour, t.minute]
  let seconds :=
    if t.microsecond != 0 then [t.second, t.microsecond]
    else if t.second != 0 then [t.second]
    else []
  let zone := (t.offset.map fun o => ["tzinfo=" ++ offsetLiteral o]).getD []
  "datetime.datetime(" ++ ", ".intercalate ((fields ++ seconds).map toString ++ zone) ++ ")"

end Timestamp

end ApiModel
