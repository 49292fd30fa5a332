import BankAsm.Text.Numeral
import BankAsm.Toml.Moment
import BankAsm.Toml.Reader

/-!
# Reading of points in time

A date must be one of the calendar. Its letters may be small, and a space may stand
between a date and a time. Digits of a second behind the ninth say nothing. What has
a year and a dash must be a date, and what has an hour and a colon a time.
-/

namespace BankAsm.Toml

open Reader

/-- Takes a number of so many digits in a range. -/
def Moment.field (width least greatest : Nat) : Reader Nat := do
  let value := Text.Numeral.value 10 (← count Char.isDigit width)
  if least ≤ value ∧ value ≤ greatest then return value else failure

namespace Date

/-- How many days a month has. -/
def daysIn (year month : Nat) : Nat :=
  if month = 2 then
    if year % 4 = 0 ∧ (year % 100 ≠ 0 ∨ year % 400 = 0) then 29 else 28
  else if month = 4 ∨ month = 6 ∨ month = 9 ∨ month = 11 then 30
  else 31

/-- Takes what stands behind the year of a date. -/
def readDay (year : Nat) : Reader Date := do
  let month ← Moment.field 2 1 12
  word ['-']
  let day ← Moment.field 2 1 (daysIn year month)
  return ⟨year, month, day⟩

/-- Takes a date. -/
def read : Reader Date := do
  let year ← Moment.field 4 0 9999
  word ['-']
  settled (readDay year)

end Date

namespace Time

/-- The nanoseconds that the digits behind the point of a second denote. -/
def nanosecondsOf (digits : List Char) : Nat :=
  Text.Numeral.value 10 ((digits ++ List.replicate 9 '0').take 9)

/-- Takes the part of a second and gives its nanoseconds. -/
def readFraction : Reader Nat := do
  word ['.']
  let first ← one Char.isDigit
  return nanosecondsOf (first :: (← many Char.isDigit))

/-- Takes what stands behind the hour of a time. Every minute may have a leap second. -/
def readMinute (hour : Nat) : Reader Time := do
  let minute ← Moment.field 2 0 59
  word [':']
  let second ← Moment.field 2 0 60
  let nanosecond ← optional readFraction
  return ⟨hour, minute, second, nanosecond.getD 0⟩

/-- Takes a time of day. -/
def read : Reader Time := do
  let hour ← Moment.field 2 0 23
  word [':']
  settled (readMinute hour)

end Time

/-- Takes the minutes of an offset. -/
def Offset.readMinutes : Reader Nat := do
  let hours ← Moment.field 2 0 23
  word [':']
  let minutes ← Moment.field 2 0 59
  return 60 * hours + minutes

/-- Takes an offset. -/
def Offset.read : Reader Offset := do
  match ← one fun c => c = 'Z' || c = 'z' || c = '+' || c = '-' with
  | 'Z' | 'z' => return .universal
  | sign =>
    let ahead : Int := (← settled readMinutes)
    return .minutes (if sign = '-' then -ahead else ahead)

namespace Moment

/-- Takes a time behind a date, with its offset if there is one. -/
def readTimeBehind : Reader (Time × Option Offset) := do
  let _ ← one fun c => c = 'T' || c = 't' || c = ' '
  let clock ← Time.read
  return (clock, ← optional Offset.read)

/-- Takes a point in time that starts with a date. -/
def readDated : Reader Moment := do
  let day ← Date.read
  match ← optional readTimeBehind with
  | some (clock, offset) => return .dateTime day clock offset
  | none => return .date day

/-- Takes a point in time. -/
def read : Reader Moment := readDated <|> .time <$> Time.read

end Moment

end BankAsm.Toml
