import TenantVault.Cbor.Moment

/-! # Timestamps

A timestamp is a date, any one character, a time of day and an offset from universal time. A date is written
`2013-03-21` or by the week `2013-W12-4`, both also without the dashes, and the day of a week may be left
out. A time of day has hours, and then maybe minutes and seconds with or without colons, and a fraction of
which six digits count. An offset is `Z` or a sign in front of a time of day.
-/

namespace TenantVault.Cbor.Timestamp

def isDigit (c : Char) : Bool := '0' ≤ c && c ≤ '9'

def digits? (cs : List Char) : Option Nat :=
  if !cs.isEmpty && cs.all isDigit then some (cs.foldl (fun acc c => 10 * acc + (c.toNat - 48)) 0) else none

/-- A number of exactly `width` digits, and what follows. -/
def field? (width : Nat) (cs : List Char) : Option (Nat × List Char) :=
  if cs.length < width then none else (digits? (cs.take width)).map (·, cs.drop width)

/-- How many characters the date takes. Behind a week a dash is the separator if a digit stands two places
after it; without dashes an odd number of digits leaves the last one to the date. -/
def dateLength (cs : List Char) : Nat :=
  let at? (i : Nat) : Option Char := cs[i]?
  let digitAt (i : Nat) : Bool := ((at? i).map isDigit).getD false
  if cs.length = 7 then 7
  else if at? 4 = some '-' then
    if at? 5 = some 'W' then
      if at? 8 = some '-' && !digitAt 10 then 10 else 8
    else 10
  else if at? 4 = some 'W' then
    let past := 7 + ((cs.drop 7).takeWhile isDigit).length
    if past < 9 then past else if past % 2 = 0 then 7 else 8
  else 8

/-- The day that a year of weeks begins with, counted from the first day of the year 1: the Monday of the
week that has the fourth of January. -/
def firstMonday (year : Nat) : Int :=
  let start : Int := Moment.daysBeforeYear year
  let weekday := start % 7
  start - weekday + if weekday ≤ 3 then 0 else 7

def weeksInYear (year : Nat) : Nat :=
  let weekday := Moment.daysBeforeYear year % 7
  if weekday = 3 ∨ (weekday = 2 ∧ Moment.isLeap year) then 53 else 52

/-- The date of a day of a week. -/
def ofWeek? (year week weekday : Nat) : Option (Nat × Nat × Nat) :=
  if 1 ≤ year ∧ 1 ≤ week ∧ week ≤ weeksInYear year ∧ 1 ≤ weekday ∧ weekday ≤ 7 then
    some (Moment.dateOfDay (firstMonday year + ((week - 1) * 7 + (weekday - 1) : Nat)).toNat)
  else none

/-- What follows a dash, which is there exactly if dashes are used. -/
def dash? (dashes : Bool) : List Char → Option (List Char)
  | cs => if !dashes then some cs else if cs.head? = some '-' then some cs.tail else none

def weekDate? (year : Nat) (dashes : Bool) (cs : List Char) : Option (Nat × Nat × Nat) := do
  let (week, rest) ← field? 2 cs
  if rest.isEmpty then ofWeek? year week 1
  else
    let (weekday, _) ← field? 1 (← dash? dashes rest)
    ofWeek? year week weekday

def date? (cs : List Char) : Option (Nat × Nat × Nat) := do
  let (year, rest) ← field? 4 cs
  let dashes := rest.head? = some '-'
  match ← dash? dashes rest with
  | 'W' :: rest => weekDate? year dashes rest
  | rest =>
    let (month, rest) ← field? 2 rest
    let (day, rest) ← field? 2 (← dash? dashes rest)
    if rest.isEmpty then return (year, month, day) else none

structure Clock where
  hour : Nat
  minute : Nat
  second : Nat
  micro : Nat

def Clock.micros (c : Clock) : Nat := ((c.hour * 60 + c.minute) * 60 + c.second) * 1000000 + c.micro

/-- Microseconds written as a fraction of a second, and what follows its digits. -/
def fraction? (cs : List Char) : Option (Nat × List Char) := do
  let kept := cs.take 6
  let n ← digits? kept
  return (n * 10 ^ (6 - kept.length), (cs.drop 6).dropWhile isDigit)

/-- Up to three numbers of two digits, then a fraction. Colons separate all of them or none; the answer
holds the numbers, the microseconds and what is left. -/
def numbers? : Nat → Option Bool → List Char → Option (List Nat × Nat × List Char)
  | 0, _, cs => (fraction? cs).map fun f => ([], f)
  | count + 1, colons, cs => do
    let (n, rest) ← field? 2 cs
    match rest with
    | [] => return ([n], 0, [])
    | c :: more =>
      let colons := colons.getD (c = ':')
      if more.isEmpty && c.toNat < 128 then return ([n], 0, [c])
      else if colons && c = ':' then
        let (ns, tail) ← numbers? count (some colons) more
        return (n :: ns, tail)
      else if c = '.' || c = ',' then
        let (micro, rest) ← fraction? more
        return ([n], micro, rest)
      else if colons then none
      else
        let (ns, tail) ← numbers? count (some colons) rest
        return (n :: ns, tail)

/-- A time of day, and what is left. -/
def clock? (cs : List Char) : Option (Clock × List Char) := do
  let (ns, micro, rest) ← numbers? 3 none cs
  return (⟨ns.getD 0 0, ns.getD 1 0, ns.getD 2 0, micro⟩, rest)

/-- Whether a text ends here; a null character ends it too. -/
def isEnd (cs : List Char) : Bool := cs.isEmpty || cs.head? = some (Char.ofNat 0)

def isOffsetMark (c : Char) : Bool := c = '+' || c = '-' || c = 'Z'

/-- An offset in microseconds. Less than a second is none. -/
def offset? : List Char → Option Int
  | 'Z' :: rest => if isEnd rest then some 0 else none
  | mark :: rest => do
    let (c, rest) ← clock? rest
    if !isEnd rest then none
    else if c.micros < 1000000 then return 0
    else return if mark = '-' then -(c.micros : Int) else c.micros
  | [] => none

/-- The time of day and the offset. What is left between the two does not count. -/
def timeAndOffset? (cs : List Char) : Option (Clock × Int) := do
  let (c, _) ← clock? (cs.takeWhile (!isOffsetMark ·))
  return (c, ← offset? (cs.dropWhile (!isOffsetMark ·)))

def moment? (text : String) : Option Moment := do
  let cs := text.toList
  if cs.length < 7 then none
  let size := dateLength cs
  let (year, month, day) ← date? (cs.take size)
  let (c, offset) ← timeAndOffset? (cs.drop (size + 1))
  let m : Moment := ⟨year, month, day, c.hour, c.minute, c.second, c.micro, offset⟩
  if m.isValid then some m else none

end TenantVault.Cbor.Timestamp
