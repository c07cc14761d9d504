import SqlText.Digits

/-!
# Calendar dates

Days of the proleptic Gregorian calendar in the years -262143 to 262142. A `Date` exists only for a
day that the calendar has: month and day are bounded in the type.

A date is written `YYYY-MM-DD`. A year outside 0 to 9999 carries its sign and as many digits as it
needs, four at least.
-/

namespace SqlText

/-- Every fourth year is a leap year, except centuries that four hundred does not divide. -/
def isLeapYear (year : Int) : Bool :=
  year % 4 = 0 && (year % 100 ≠ 0 || year % 400 = 0)

/-- The number of days of a month. -/
def daysInMonth (year : Int) (month : Nat) : Nat :=
  if month = 2 then (if isLeapYear year then 29 else 28)
  else if month = 4 ∨ month = 6 ∨ month = 9 ∨ month = 11 then 30
  else 31

/-- A day of the calendar. -/
structure Date where
  year : Int
  month : Nat
  day : Nat
  year_bounds : -262143 ≤ year ∧ year ≤ 262142
  month_bounds : 1 ≤ month ∧ month ≤ 12
  day_bounds : 1 ≤ day ∧ day ≤ daysInMonth year month
  deriving DecidableEq

namespace Date

/-- The day with the given numbers, if the calendar has it. -/
def ofParts? (year : Int) (month day : Nat) : Option Date :=
  if hy : -262143 ≤ year ∧ year ≤ 262142 then
    if hm : 1 ≤ month ∧ month ≤ 12 then
      if hd : 1 ≤ day ∧ day ≤ daysInMonth year month then some ⟨year, month, day, hy, hm, hd⟩
      else none
    else none
  else none

/-! ## Writing -/

/-- How many digits a year is written with. -/
def yearWidth (magnitude : Nat) : Nat :=
  if magnitude < 10000 then 4 else if magnitude < 100000 then 5 else 6

/-- A year; outside 0 to 9999 with its sign. -/
def yearChars (year : Int) : List Char :=
  let digits := Digits.fixed (yearWidth year.natAbs) year.natAbs
  if year < 0 then '-' :: digits
  else if year < 10000 then digits
  else '+' :: digits

/-- A date as characters: year, month and day with hyphens between them. -/
def chars (d : Date) : List Char :=
  yearChars d.year ++ '-' :: Digits.fixed 2 d.month ++ '-' :: Digits.fixed 2 d.day

/-- A date as text. -/
def text (d : Date) : String :=
  String.ofList d.chars

/-! ## Reading -/

/-- Reads the year: four digits, or a sign and four to six digits. -/
def readYear : List Char → Option (Int × List Char)
  | '+' :: rest => signed 1 rest
  | '-' :: rest => signed (-1) rest
  | rest => (Digits.take? 4 rest).map fun (n, rest) => ((n : Int), rest)
where
  /-- The magnitude of a signed year: all digits up to the first other character. -/
  signed (sign : Int) (input : List Char) : Option (Int × List Char) :=
    let digits := input.takeWhile Char.isDigit
    if 4 ≤ digits.length ∧ digits.length ≤ 6 then
      some (sign * Digits.value digits, input.drop digits.length)
    else none

/-- Reads a date; nothing may follow it. -/
def ofChars? (input : List Char) : Option Date :=
  match readYear input with
  | some (year, '-' :: rest) =>
    match Digits.take? 2 rest with
    | some (month, '-' :: rest) =>
      match Digits.take? 2 rest with
      | some (day, []) => ofParts? year month day
      | _ => none
    | _ => none
  | _ => none

/-- Reads the text of a date. -/
def parse? (text : String) : Option Date :=
  ofChars? text.toList

end Date

end SqlText
