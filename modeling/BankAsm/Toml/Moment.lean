/-!
# Points in time

A point in time is a date, a time of day, or both with perhaps an offset from
universal time. `Moment.text` is the one text that a moment is shown by, however a
document spells it.
-/

namespace BankAsm.Toml

/-- The decimal digits of a number, filled up with zeros to a width. -/
def decimal (width n : Nat) : List Char := (Nat.toDigits 10 n).leftpad width '0'

example : decimal 4 79 = ['0', '0', '7', '9'] := by decide
example : decimal 2 365 = ['3', '6', '5'] := by decide

/-- A day of the calendar. -/
structure Date where
  year : Nat
  month : Nat
  day : Nat
deriving DecidableEq

/-- A time of day, exact to the nanosecond. -/
structure Time where
  hour : Nat
  minute : Nat
  second : Nat
  nanosecond : Nat
deriving DecidableEq

/-- How far a time is from universal time: not at all, or by so many minutes. -/
inductive Offset where
  | universal
  | minutes (ahead : Int)
deriving DecidableEq

/-- A point in time. -/
inductive Moment where
  | date (day : Date)
  | time (clock : Time)
  | dateTime (day : Date) (clock : Time) (offset : Option Offset)
deriving DecidableEq

/-- The text of a date. -/
def Date.text (d : Date) : List Char :=
  decimal 4 d.year ++ '-' :: decimal 2 d.month ++ '-' :: decimal 2 d.day

namespace Time

/-- The text of the part of a second: its digits up to the last that is not zero. -/
def fractionText (nanosecond : Nat) : List Char :=
  if nanosecond = 0 then []
  else '.' :: ((decimal 9 nanosecond).reverse.dropWhile (· = '0')).reverse

/-- The text of a time of day. -/
def text (t : Time) : List Char :=
  decimal 2 t.hour ++ ':' :: decimal 2 t.minute ++ ':' :: decimal 2 t.second
    ++ fractionText t.nanosecond

end Time

/-- The text of an offset. An offset of no minutes has a plus sign. -/
def Offset.text : Offset → List Char
  | .universal => ['Z']
  | .minutes ahead =>
    (if ahead < 0 then '-' else '+')
      :: decimal 2 (ahead.natAbs / 60) ++ ':' :: decimal 2 (ahead.natAbs % 60)

/-- The text of a moment. -/
def Moment.text : Moment → String
  | .date d => String.ofList d.text
  | .time t => String.ofList t.text
  | .dateTime d t offset =>
    String.ofList (d.text ++ 'T' :: t.text ++ (offset.map Offset.text).getD [])

example : (Moment.dateTime ⟨199, 1, 2⟩ ⟨23, 59, 60, 120000000⟩ (some (.minutes (-30)))).text
    = "0199-01-02T23:59:60.12-00:30" := by decide

end BankAsm.Toml
