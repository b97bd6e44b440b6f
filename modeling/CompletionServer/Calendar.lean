/-!
# Calendar dates and moments

Days of the proleptic Gregorian calendar, years 1 to 9999, and moments on them with an optional
offset from universal time. A configuration file may hold such a value where a number or a text is
expected, so all that is needed is when one exists and how it is written.
-/

namespace CompletionServer

/-- A day, by its numbers. -/
structure Date where
  year : Nat
  month : Nat
  day : Nat
deriving DecidableEq, Repr, Inhabited

/-- A moment: a day, a time of day to the microsecond, and the minutes its clock is ahead of
universal time, if it says so. -/
structure Moment where
  date : Date
  hour : Nat
  minute : Nat
  second : Nat
  microsecond : Nat
  offset : Option Int
deriving DecidableEq, Repr, Inhabited

/-! ## Which days and moments exist -/

def isLeapYear (year : Nat) : Bool :=
  year % 4 == 0 && (year % 100 != 0 || year % 400 == 0)

def daysInMonth (year month : Nat) : Nat :=
  if month == 2 then if isLeapYear year then 29 else 28
  else if month == 4 || month == 6 || month == 9 || month == 11 then 30
  else 31

/-- Why written numbers name no day or moment. -/
inductive CalendarFault where
  | year (n : Nat)
  | month
  | day
  | hour
  | minute
  | second
  | offset (minutes : Int)
deriving DecidableEq, Repr

/-- Checks the year first, then the month, then the day within it. -/
def Date.check (d : Date) : Except CalendarFault Date :=
  if d.year < 1 ∨ 9999 < d.year then .error (.year d.year)
  else if d.month < 1 ∨ 12 < d.month then .error .month
  else if d.day < 1 ∨ daysInMonth d.year d.month < d.day then .error .day
  else .ok d

/-- Checks the offset first, which must be less than a day, then the day, then the time. -/
def Moment.check (m : Moment) : Except CalendarFault Moment :=
  match m.offset with
  | some minutes =>
    if minutes ≤ -1440 ∨ 1440 ≤ minutes then .error (.offset minutes) else clock
  | none => clock
where
  clock : Except CalendarFault Moment := do
    discard m.date.check
    if 23 < m.hour then .error .hour
    else if 59 < m.minute then .error .minute
    else if 59 < m.second then .error .second
    else .ok m

/-! ## Equal moments -/

/-- The number of a day, from one for the first day of the first year. -/
def Date.ordinal (d : Date) : Nat :=
  let past := d.year - 1
  let months := (List.range (d.month - 1)).map fun i ↦ daysInMonth d.year (i + 1)
  past * 365 + past / 4 - past / 100 + past / 400 + months.foldl (· + ·) 0 + d.day

/-- The microseconds of universal time up to a moment, if it says how far its clock is off. -/
def Moment.universal? (m : Moment) : Option Int :=
  m.offset.map fun ahead ↦
    let minutes : Int := m.date.ordinal * 1440 + m.hour * 60 + m.minute - ahead
    (minutes * 60 + m.second) * 1000000 + m.microsecond

/-- Whether two moments are equal. Clocks in different zones may show the same moment; a clock that
names no zone shows the moment of no other. -/
def Moment.isSame (m n : Moment) : Bool :=
  match m.universal?, n.universal? with
  | some a, some b => a == b
  | none, none => m == n
  | _, _ => false

/-! ## Writing -/

/-- `n` with zeros before it, to at least `width` digits. -/
def paddedNat (width n : Nat) : String :=
  let digits := toString n
  String.ofList (List.replicate (width - digits.length) '0') ++ digits

/-- Year, month and day, such as `2024-01-02`. -/
def Date.text (d : Date) : String :=
  s!"{paddedNat 4 d.year}-{paddedNat 2 d.month}-{paddedNat 2 d.day}"

def offsetText (minutes : Int) : String :=
  let sign := if minutes < 0 then "-" else "+"
  s!"{sign}{paddedNat 2 (minutes.natAbs / 60)}:{paddedNat 2 (minutes.natAbs % 60)}"

/-- Such as `2024-01-02 03:04:05.000006+01:00`; a whole second and an absent offset are left out. -/
def Moment.text (m : Moment) : String :=
  let clock := s!"{paddedNat 2 m.hour}:{paddedNat 2 m.minute}:{paddedNat 2 m.second}"
  let fraction := if m.microsecond == 0 then "" else "." ++ paddedNat 6 m.microsecond
  m.date.text ++ " " ++ clock ++ fraction ++ (m.offset.map offsetText).getD ""

/-- A span of minutes as whole days and the seconds after them, which are never negative. -/
def spanText (minutes : Int) : String :=
  let days := Int.fdiv minutes 1440
  let seconds := Int.fmod minutes 1440 * 60
  let parts := (if days == 0 then [] else [s!"days={days}"])
    ++ (if seconds == 0 then [] else [s!"seconds={seconds}"])
  "datetime.timedelta(" ++ (if parts.isEmpty then "0" else ", ".intercalate parts) ++ ")"

/-- The form of a day inside a written collection. -/
def Date.quoted (d : Date) : String := s!"datetime.date({d.year}, {d.month}, {d.day})"

/-- The form of a moment inside a written collection: seconds and microseconds only as far as they
are not zero. -/
def Moment.quoted (m : Moment) : String :=
  let day := [m.date.year, m.date.month, m.date.day, m.hour, m.minute]
  let fine := if m.microsecond != 0 then [m.second, m.microsecond]
    else if m.second != 0 then [m.second] else []
  let zone := match m.offset with
    | none => []
    | some 0 => ["tzinfo=datetime.timezone.utc"]
    | some minutes => [s!"tzinfo=datetime.timezone({spanText minutes})"]
  "datetime.datetime(" ++ ", ".intercalate ((day ++ fine).map toString ++ zone) ++ ")"

def CalendarFault.message : CalendarFault → String
  | .year n => s!"year {n} is out of range"
  | .month => "month must be in 1..12"
  | .day => "day is out of range for month"
  | .hour => "hour must be in 0..23"
  | .minute => "minute must be in 0..59"
  | .second => "second must be in 0..59"
  | .offset minutes =>
    "offset must be a timedelta strictly between -timedelta(hours=24) and timedelta(hours=24), not "
      ++ spanText minutes ++ "."

end CompletionServer
