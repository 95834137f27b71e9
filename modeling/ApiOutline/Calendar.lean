import ApiOutline.Decimal.Notation

/-!
# Dates and times of day

A `Date` is a day of the proleptic Gregorian calendar between the years 1 and 9999, a `Moment` a
day with a time and, where one was written, an offset from universal time. Both are built only
from parts that name an existing day and time, so every value has a text.
-/

namespace ApiOutline

/-- A day of the calendar. -/
structure Date where
  year : Nat
  month : Nat
  day : Nat
  deriving Repr, DecidableEq, Inhabited

/-- A day with a time, to the microsecond. The offset from universal time is in minutes. -/
structure Moment where
  date : Date
  hour : Nat
  minute : Nat
  second : Nat
  microsecond : Nat
  offset : Option Int
  deriving Repr, DecidableEq, Inhabited

namespace Date

def isLeap (year : Nat) : Bool :=
  (year % 4 == 0 && year % 100 != 0) || year % 400 == 0

def daysInMonth (year month : Nat) : Nat :=
  if month = 2 then if isLeap year then 29 else 28
  else if month = 4 ∨ month = 6 ∨ month = 9 ∨ month = 11 then 30
  else 31

/-- The day with these parts, if the calendar has it. -/
def of? (year month day : Nat) : Option Date :=
  if 1 ≤ year ∧ year ≤ 9999 ∧ 1 ≤ month ∧ month ≤ 12 ∧ 1 ≤ day ∧ day ≤ daysInMonth year month then
    some ⟨year, month, day⟩
  else none

/-- Days since the first day of the calendar. -/
def ordinal (d : Date) : Nat :=
  let y := d.year - 1
  let before := (List.range (d.month - 1)).foldl (fun n m => n + daysInMonth d.year (m + 1)) 0
  y * 365 + y / 4 - y / 100 + y / 400 + before + d.day

end Date

/-- A number with leading zeros up to a width. -/
def padded (width n : Nat) : String :=
  let s := Decimal.natText n
  String.ofList (List.replicate (width - s.length) '0') ++ s

/-- Year, month and day with hyphens. -/
def Date.text (d : Date) : String :=
  padded 4 d.year ++ "-" ++ padded 2 d.month ++ "-" ++ padded 2 d.day

namespace Moment

/-- The moment with these parts, if the clock has it. Offsets stay within a day. -/
def of? (date : Date) (hour minute second microsecond : Nat) (offset : Option Int) :
    Option Moment :=
  if hour ≤ 23 ∧ minute ≤ 59 ∧ second ≤ 59 ∧ microsecond ≤ 999999 ∧
      (offset.all fun m => -1440 < m ∧ m < 1440) then
    some ⟨date, hour, minute, second, microsecond, offset⟩
  else none

/-- An offset as sign, hours and minutes. -/
def offsetText (m : Int) : String :=
  (if m < 0 then "-" else "+") ++ padded 2 (m.natAbs / 60) ++ ":" ++ padded 2 (m.natAbs % 60)

/-- The time of day, with six decimals where the second is broken. -/
def timeText (t : Moment) : String :=
  padded 2 t.hour ++ ":" ++ padded 2 t.minute ++ ":" ++ padded 2 t.second ++
    (if t.microsecond = 0 then "" else "." ++ padded 6 t.microsecond)

/-- Day and time with a separator between them and the offset as it was written. -/
def textWith (separator : String) (t : Moment) : String :=
  t.date.text ++ separator ++ t.timeText ++ ((t.offset.map offsetText).getD "")

/-- The text with a letter between day and time. -/
def text (t : Moment) : String :=
  t.textWith "T"

/-- The text in which universal time is marked by a letter of its own. -/
def zuluText (t : Moment) : String :=
  if t.offset = some 0 then t.date.text ++ "T" ++ t.timeText ++ "Z" else t.text

/-- Microseconds since the start of the calendar, at universal time where an offset is known. -/
def instant (t : Moment) : Int :=
  let minutes : Int := t.date.ordinal * 1440 + t.hour * 60 + t.minute - t.offset.getD 0
  (minutes * 60 + t.second) * 1000000 + t.microsecond

/-- Two moments are the same if both are local and agree, or both are placed at one instant. -/
def same (a b : Moment) : Bool :=
  a.offset.isSome == b.offset.isSome && a.instant == b.instant

end Moment

end ApiOutline
