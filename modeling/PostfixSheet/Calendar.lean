import PostfixSheet.Text.Basic

/-!
Days of the calendar, and their numbers. Days are counted from the first of March of a year zero, so
that a leap day is the last day of its year.
-/

namespace PostfixSheet

structure Day where
  year : Nat
  month : Nat
  day : Nat
deriving DecidableEq, Repr

namespace Day

/-- The number of the first day of the year 1970. -/
def countAt1970 : Nat := 719468

/-- The days of four hundred years, after which the calendar repeats. -/
def daysOfCycle : Nat := 146097

def ofCount (count : Nat) : Day :=
  let inCycle := count % daysOfCycle
  let yearInCycle := (inCycle - inCycle / 1460 + inCycle / 36524 - inCycle / 146096) / 365
  let inYear := inCycle - (365 * yearInCycle + yearInCycle / 4 - yearInCycle / 100)
  let marchMonth := (5 * inYear + 2) / 153
  let month := if marchMonth < 10 then marchMonth + 3 else marchMonth - 9
  let year := 400 * (count / daysOfCycle) + yearInCycle
  ⟨if month ≤ 2 then year + 1 else year, month, inYear - (153 * marchMonth + 2) / 5 + 1⟩

/-- The number of a day. Years and months count from one. -/
def count (day : Day) : Nat :=
  let year := if day.month ≤ 2 then day.year - 1 else day.year
  365 * year + year / 4 - year / 100 + year / 400 + (153 * ((day.month + 9) % 12) + 2) / 5 + day.day
    - 1

def isLeapYear (year : Nat) : Bool := year % 4 == 0 && (year % 100 != 0 || year % 400 == 0)

def daysOfMonth (year month : Nat) : Nat :=
  if month = 2 then (if isLeapYear year then 29 else 28)
  else if [4, 6, 9, 11].contains month then 30
  else 31

/-- A day by its year in four digits, its month and its day in two. -/
def text (day : Day) : Text :=
  Text.digits 4 day.year ++ ['-'] ++ Text.digits 2 day.month ++ ['-'] ++ Text.digits 2 day.day

end Day
end PostfixSheet
