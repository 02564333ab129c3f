import TenantVault.Binary64
import TenantVault.Text.Quoted

/-! # Points in time

A moment is a date of the Gregorian calendar in the years 1 to 9999, a time of day to the microsecond and
an offset from universal time. Two moments are the same if they name the same instant, which is counted in
microseconds from the start of 1970.
-/

namespace TenantVault.Cbor

structure Moment where
  year : Nat
  month : Nat
  day : Nat
  hour : Nat
  minute : Nat
  second : Nat
  micro : Nat
  /-- Microseconds east of universal time. -/
  offset : Int
  deriving DecidableEq, Repr

namespace Moment

def isLeap (year : Nat) : Bool := year % 4 == 0 && (year % 100 != 0 || year % 400 == 0)

def daysInMonth (year month : Nat) : Nat :=
  if month = 2 then (if isLeap year then 29 else 28)
  else if month = 4 ∨ month = 6 ∨ month = 9 ∨ month = 11 then 30 else 31

/-- Days before the first of January of a year, counted from the year 1. -/
def daysBeforeYear (year : Nat) : Nat :=
  let y := year - 1
  y * 365 + y / 4 - y / 100 + y / 400

def daysBeforeMonth (year month : Nat) : Nat :=
  (List.range (month - 1)).foldl (fun days i => days + daysInMonth year (i + 1)) 0

/-- The number of 1 January 1970 in the same count. -/
def epochDay : Nat := daysBeforeYear 1970

/-- Microseconds in a day. -/
def dayLength : Nat := 86400000000

/-- Microseconds from the start of 1970 in universal time. -/
def instant (m : Moment) : Int :=
  let days : Int := daysBeforeYear m.year + daysBeforeMonth m.year m.month + (m.day - 1 : Nat) - epochDay
  let seconds : Int := ((m.hour * 60 + m.minute) * 60 + m.second : Nat)
  days * dayLength + seconds * 1000000 + m.micro - m.offset

def isValid (m : Moment) : Bool :=
  1 ≤ m.year && m.year ≤ 9999 && 1 ≤ m.month && m.month ≤ 12 && 1 ≤ m.day &&
    m.day ≤ daysInMonth m.year m.month && m.hour < 24 && m.minute < 60 && m.second < 60 &&
    decide (m.offset.natAbs < dayLength)

/-- The month and the day of a day of a year, counting from zero. -/
def monthAndDay (year : Nat) : Nat → Nat → Nat → Nat × Nat
  | 0, month, rest => (month, rest + 1)
  | fuel + 1, month, rest =>
    let size := daysInMonth year month
    if rest < size then (month, rest + 1) else monthAndDay year fuel (month + 1) (rest - size)

/-- The year that a day belongs to; the guess from the mean length is at most one off. -/
def yearOfDay (day : Nat) : Nat :=
  let guess := day * 400 / 146097 + 1
  if day < daysBeforeYear guess then guess - 1
  else if daysBeforeYear (guess + 1) ≤ day then guess + 1 else guess

/-- The year, the month and the day with a number, counted from the first day of the year 1. -/
def dateOfDay (day : Nat) : Nat × Nat × Nat :=
  let year := yearOfDay day
  (year, monthAndDay year 11 1 (day - daysBeforeYear year))

def ofInstant? (micros : Int) : Option Moment :=
  let fromYearOne := micros + epochDay * dayLength
  if fromYearOne < 0 then none
  else
    let all := fromYearOne.toNat
    let (year, month, day) := dateOfDay (all / dayLength)
    let seconds := all / 1000000 % 86400
    if 9999 < year then none
    else some ⟨year, month, day, seconds / 3600, seconds / 60 % 60, seconds % 60, all % 1000000, 0⟩

/-- Seconds from the start of 1970. -/
def ofSeconds? (n : Int) : Option Moment := ofInstant? (n * 1000000)

/-- Seconds given by a finite double. The fraction of a second is scaled to microseconds as a double, which
is then rounded to the nearest integer. -/
def ofFloat? (x : Binary64) : Option Moment :=
  if !x.isFinite then none
  else
    let (num, den) := x.magnitude
    let (part, unit) := (Binary64.nearest false (num % den * 1000000) den).magnitude
    let micros : Int := (num / den * 1000000 + Binary64.divideToEven part unit : Nat)
    ofInstant? (if x.isNegative then -micros else micros)

def padded (width n : Nat) : List Char :=
  let ds := Nat.toDigits 10 n
  List.replicate (width - ds.length) '0' ++ ds

def fractionChars (micro : Nat) : List Char := if micro = 0 then [] else '.' :: padded 6 micro

/-- An offset as a sign, hours and minutes; seconds and their fraction only where they are not zero. -/
def offsetChars (offset : Int) : List Char :=
  let size := offset.natAbs
  let seconds := size / 1000000
  let tail := if size % 60000000 = 0 then []
    else ':' :: padded 2 (seconds % 60) ++ fractionChars (size % 1000000)
  (if offset < 0 then '-' else '+') :: padded 2 (seconds / 3600) ++ ':' :: padded 2 (seconds / 60 % 60) ++ tail

/-- The moment as `2013-03-21 20:04:00+00:00`. -/
def chars (m : Moment) : List Char :=
  padded 4 m.year ++ '-' :: padded 2 m.month ++ '-' :: padded 2 m.day ++ ' ' :: padded 2 m.hour ++
    ':' :: padded 2 m.minute ++ ':' :: padded 2 m.second ++ fractionChars m.micro ++ offsetChars m.offset

/-- A field of a record under its name, if it is not zero. -/
def namedField (name : String) (n : Int) : List (List Char) :=
  if n = 0 then [] else [name.toList ++ '=' :: (if n < 0 then ['-'] else []) ++ Nat.toDigits 10 n.natAbs]

/-- The offset as a length of time, in days, seconds and microseconds of which only the days may be negative. -/
def inspectOffset (offset : Int) : List Char :=
  if offset = 0 then "datetime.timezone.utc".toList
  else
    let rest := offset % dayLength
    let fields := namedField "days" (offset / dayLength) ++ namedField "seconds" (rest / 1000000) ++
      namedField "microseconds" (rest % 1000000)
    "datetime.timezone(datetime.timedelta(".toList ++ List.intercalate [',', ' '] fields ++ [')', ')']

/-- The moment as a list of its fields; a zero fraction, and then zero seconds, are left out. -/
def inspectChars (m : Moment) : List Char :=
  let tail := if m.micro ≠ 0 then [m.second, m.micro] else if m.second ≠ 0 then [m.second] else []
  let fields := ([m.year, m.month, m.day, m.hour, m.minute] ++ tail).map (Nat.toDigits 10)
  "datetime.datetime(".toList ++ List.intercalate [',', ' '] fields ++ ", tzinfo=".toList ++
    inspectOffset m.offset ++ [')']

end Moment

end TenantVault.Cbor
