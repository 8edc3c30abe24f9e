/-
Points in time as dates and times of day, from the seconds since the beginning of 1970.
-/

namespace PixelAudit.Calendar

def isLeapYear (year : Nat) : Bool := year % 4 == 0 && (year % 100 != 0 || year % 400 == 0)

def daysOfYear (year : Nat) : Nat := if isLeapYear year then 366 else 365

def monthLengths (year : Nat) : List Nat :=
  [31, if isLeapYear year then 29 else 28, 31, 30, 31, 30, 31, 31, 30, 31, 30, 31]

/-- the year that holds a day, and the day in it, counted from zero; the days are counted from the start of a year -/
def findYear (year day : Nat) : Nat × Nat :=
  if day < daysOfYear year then (year, day) else findYear (year + 1) (day - daysOfYear year)
termination_by day
decreasing_by
  have : 0 < daysOfYear year := by unfold daysOfYear; split <;> decide
  omega

/-- the month that holds a day of a year, and the day in it, both counted from one -/
def findMonth (month day : Nat) : List Nat → Nat × Nat
  | [] => (month, day + 1)
  | length :: rest => if day < length then (month, day + 1) else findMonth (month + 1) (day - length) rest

/-- a number in so many digits at least -/
def padded (width n : Nat) : String :=
  let digits := toString n
  String.ofList (List.replicate (width - digits.length) '0') ++ digits

/-- the part of a second after the point, in groups of three digits, as many as needed -/
def fractionText (nanoseconds : Nat) : String :=
  if nanoseconds = 0 then ""
  else if nanoseconds % 1000000 = 0 then "." ++ padded 3 (nanoseconds / 1000000)
  else if nanoseconds % 1000 = 0 then "." ++ padded 6 (nanoseconds / 1000)
  else "." ++ padded 9 nanoseconds

/-- a point in time, written as date and time of day -/
def text (seconds nanoseconds : Nat) : String :=
  let (year, dayOfYear) := findYear 1970 (seconds / 86400)
  let (month, day) := findMonth 1 dayOfYear (monthLengths year)
  let time := seconds % 86400
  padded 4 year ++ "-" ++ padded 2 month ++ "-" ++ padded 2 day ++ "T" ++ padded 2 (time / 3600) ++ ":" ++
    padded 2 (time / 60 % 60) ++ ":" ++ padded 2 (time % 60) ++ fractionText nanoseconds ++ "Z"

end PixelAudit.Calendar
