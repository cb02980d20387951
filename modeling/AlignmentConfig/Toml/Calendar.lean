-- SUMMARY: Dates, times and date-times in a document: their grammar and the days that the calendar has.
import AlignmentConfig.Toml.Number

/-!
# Dates and times

A date is a year of four digits, a month and a day that the calendar has, from
the year 1 on. A time has hours, minutes, seconds and an optional fraction. A
date and a time with a `T` or a space between them are a date-time, which may
end in an offset.

Each reader returns what follows the text that it recognized at the front.
-/

namespace AlignmentConfig.Toml

/-- A number of two digits between two bounds. -/
def twoDigits? (low high : Nat) : List Char → Option (Nat × List Char)
  | a :: b :: cs =>
    if a.isDigit ∧ b.isDigit then
      let n := Nat.ofDigitChars 10 [a, b] 0
      if low ≤ n ∧ n ≤ high then some (n, cs) else none
    else none
  | _ => none

/-- What follows `mark` at the front. -/
def afterMark? (mark : Char) : List Char → Option (List Char)
  | c :: cs => if c = mark then some cs else none
  | [] => none

/-- Whether a year has a leap day. -/
def isLeapYear (year : Nat) : Bool := year % 4 = 0 && (year % 100 ≠ 0 || year % 400 = 0)

/-- The number of days in a month. -/
def daysInMonth (year month : Nat) : Nat :=
  if month = 2 then if isLeapYear year then 29 else 28
  else if month = 4 ∨ month = 6 ∨ month = 9 ∨ month = 11 then 30
  else 31

/-- What follows the date at the front, if one stands there that the calendar has. -/
def afterDate? (cs : List Char) : Option (List Char) := do
  let (century, cs) ← twoDigits? 0 99 cs
  let (year, cs) ← twoDigits? 0 99 cs
  let (month, cs) ← twoDigits? 1 12 (← afterMark? '-' cs)
  let (day, cs) ← twoDigits? 1 31 (← afterMark? '-' cs)
  let year := 100 * century + year
  if 1 ≤ year ∧ day ≤ daysInMonth year month then some cs else none

/-- What follows the fraction of a second at the front, or everything if there is none. -/
def afterSecondFraction (cs : List Char) : List Char :=
  match cs with
  | '.' :: d :: rest => if d.isDigit then rest.dropWhile Char.isDigit else cs
  | _ => cs

/-- What follows the time at the front, if there is one. -/
def afterTime? (cs : List Char) : Option (List Char) := do
  let (_, cs) ← twoDigits? 0 23 cs
  let (_, cs) ← twoDigits? 0 59 (← afterMark? ':' cs)
  let (_, cs) ← twoDigits? 0 59 (← afterMark? ':' cs)
  return afterSecondFraction cs

/-- What follows the offset at the front, or everything if there is none. -/
def afterOffset (cs : List Char) : List Char :=
  match cs with
  | 'Z' :: rest | 'z' :: rest => rest
  | '+' :: rest | '-' :: rest =>
    let hoursAndMinutes := do
      let (_, rest) ← twoDigits? 0 23 rest
      let (_, rest) ← twoDigits? 0 59 (← afterMark? ':' rest)
      return rest
    hoursAndMinutes.getD cs
  | _ => cs

/-- What follows the time of a date-time at the front, its opening mark included. -/
def afterTimeOfDate? : List Char → Option (List Char)
  | 'T' :: cs | 't' :: cs | ' ' :: cs => (afterTime? cs).map afterOffset
  | _ => none

/-- The date, time or date-time at the front, if there is one. -/
def calendar? (cs : List Char) : Option (Value × List Char) :=
  match afterDate? cs with
  | some rest =>
    match afterTimeOfDate? rest with
    | some rest => some (.dateTime (spelling cs rest), rest)
    | none => some (.date (spelling cs rest), rest)
  | none => (afterTime? cs).map fun rest => (.time (spelling cs rest), rest)

end AlignmentConfig.Toml
