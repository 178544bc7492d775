import DispatchGen.Toml.Number

/-!
# Dates and times

A date, a time, or a date with a time and perhaps an offset. Days fit their month; a minute may have
a leap second.
-/

namespace DispatchGen.Toml

open Reader

/-- A number of exactly `count` digits within bounds. -/
def fixedNumber (count least most : Nat) : Reader Nat := do
  let value := ofDigits 10 (← exactly (satisfy Char.isDigit) count)
  guard (least ≤ value ∧ value ≤ most)
  return value

def isLeapYear (year : Nat) : Bool :=
  year % 4 == 0 && (year % 100 != 0 || year % 400 == 0)

def daysInMonth (year month : Nat) : Nat :=
  if month = 2 then (if isLeapYear year then 29 else 28)
  else if month ∈ [4, 6, 9, 11] then 30
  else 31

def date : Reader Unit := do
  let year ← fixedNumber 4 0 9999
  char '-'
  let month ← fixedNumber 2 1 12
  char '-'
  let _ ← fixedNumber 2 1 (daysInMonth year month)

/-- Hours, minutes and seconds, the seconds perhaps with a fraction. -/
def time : Reader Unit := do
  let _ ← fixedNumber 2 0 23
  char ':'
  let _ ← fixedNumber 2 0 59
  char ':'
  let _ ← fixedNumber 2 0 60
  let _ ← optional do
    char '.'
    let _ ← satisfy Char.isDigit
    run Char.isDigit

def offset : Reader Unit :=
  (do let _ ← satisfy fun c => c == 'Z' || c == 'z') <|> do
    let _ ← satisfy fun c => c == '+' || c == '-'
    let _ ← fixedNumber 2 0 23
    char ':'
    let _ ← fixedNumber 2 0 59

/-- A time of a day, behind the date and its delimiter. -/
def timeOfDay : Reader Unit := do
  let _ ← satisfy fun c => c == 'T' || c == 't' || c == ' '
  time
  let _ ← optional offset

/-- A date, a time or both, as it is written. -/
def datetime : Reader String := do
  return String.ofList (← taken ((do date; let _ ← optional timeOfDay) <|> time))

end DispatchGen.Toml
