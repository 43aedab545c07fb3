import ModelSurface.Calendar.Numeral

/-!
Dates of the proleptic Gregorian calendar, written year, month, day.
-/

namespace ModelSurface

namespace Calendar

def isLeapYear (year : Int) : Bool :=
  year % 4 == 0 && (year % 100 != 0 || year % 400 == 0)

def daysInMonth (year : Int) (month : Nat) : Nat :=
  if month = 2 then (if isLeapYear year then 29 else 28)
  else if month = 4 ∨ month = 6 ∨ month = 9 ∨ month = 11 then 30
  else 31

def IsDate (year : Int) (month day : Nat) : Prop :=
  -262143 ≤ year ∧ year ≤ 262142 ∧ 1 ≤ month ∧ month ≤ 12 ∧ 1 ≤ day ∧ day ≤ daysInMonth year month

instance (year : Int) (month day : Nat) : Decidable (IsDate year month day) :=
  inferInstanceAs (Decidable (_ ∧ _))

end Calendar

open Calendar

structure Date where
  year : Int
  month : Nat
  day : Nat
  valid : IsDate year month day
deriving DecidableEq

namespace Date

def of? (year : Int) (month day : Nat) : Option Date :=
  if h : IsDate year month day then some { year := year, month := month, day := day, valid := h }
  else none

def compare (a b : Date) : Ordering :=
  (Ord.compare a.year b.year).then ((Ord.compare a.month b.month).then (Ord.compare a.day b.day))

def next? (date : Date) : Option Date :=
  if date.day < daysInMonth date.year date.month then of? date.year date.month (date.day + 1)
  else if date.month < 12 then of? date.year (date.month + 1) 1
  else of? (date.year + 1) 1 1

def previous? (date : Date) : Option Date :=
  if 1 < date.day then of? date.year date.month (date.day - 1)
  else if 1 < date.month then
    of? date.year (date.month - 1) (daysInMonth date.year (date.month - 1))
  else of? (date.year - 1) 12 31

/-- Four digits; years outside `0` to `9999` carry a sign. -/
def yearChars (year : Int) : List Char :=
  if 0 ≤ year ∧ year < 10000 then Text.padded 4 year.toNat
  else (if year < 0 then '-' else '+') :: Text.padded 4 year.natAbs

def chars (date : Date) : List Char :=
  yearChars date.year ++ '-' :: Text.padded 2 date.month ++ '-' :: Text.padded 2 date.day

def text (date : Date) : String := String.ofList date.chars

/-- A year: at most four digits, or a sign and any number of them. -/
def readYear (text : List Char) : Except Fault (Int × List Char) := do
  let (year, rest) ← match text with
    | '-' :: text => (readNumber text.length text).map fun (n, rest) => (-(n : Int), rest)
    | '+' :: text => (readNumber text.length text).map fun (n, rest) => ((n : Int), rest)
    | text => (readNumber 4 text).map fun (n, rest) => ((n : Int), rest)
  if -2147483648 ≤ year ∧ year ≤ 2147483647 then .ok (year, rest) else .error .outOfRange

/-- Reads `year-month-day`. Month and day may have one digit, and white space may stand in front
of each number. -/
def ofChars (text : List Char) : Except Fault Date := do
  let (year, text) ← readYear (Text.dropBlanks text)
  let text ← readSeparator '-' text
  let (month, text) ← readField 2 1 12 text
  let text ← readSeparator '-' text
  let (day, text) ← readField 2 1 31 text
  if text.isEmpty then
    match of? year month day with
    | some date => .ok date
    | none => .error .outOfRange
  else .error .trailing

def ofText (text : String) : Except Fault Date := ofChars text.toList

end Date

end ModelSurface
