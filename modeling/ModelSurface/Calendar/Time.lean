import ModelSurface.Calendar.Numeral
import ModelSurface.Json.Basic

/-!
Times of day to the billionth of a second, with leap seconds, and lengths of time in microseconds,
which are given and shown in seconds.
-/

namespace ModelSurface

open Calendar

/-- A time of day. A leap second is second 59 with a billion or more billionths. -/
structure Time where
  hour : Nat
  minute : Nat
  second : Nat
  nano : Nat
  hour_lt : hour < 24
  minute_lt : minute < 60
  second_lt : second < 60
  nano_lt : nano < 1000000000 ∨ second = 59 ∧ nano < 2000000000
deriving DecidableEq

namespace Time

def of? (hour minute second nano : Nat) : Option Time :=
  if h : hour < 24 ∧ minute < 60 ∧ second < 60 ∧
      (nano < 1000000000 ∨ second = 59 ∧ nano < 2000000000) then
    some
      { hour := hour, minute := minute, second := second, nano := nano
        hour_lt := h.1, minute_lt := h.2.1, second_lt := h.2.2.1, nano_lt := h.2.2.2 }
  else none

def ofClock? (hour minute second nano : Nat) : Option Time :=
  if second = 60 then of? hour minute 59 (1000000000 + nano) else of? hour minute second nano

def compare (a b : Time) : Ordering :=
  (Ord.compare a.hour b.hour).then ((Ord.compare a.minute b.minute).then
    ((Ord.compare a.second b.second).then (Ord.compare a.nano b.nano)))

/-- The seconds a clock shows: 60 in a leap second. -/
def shownSecond (time : Time) : Nat := time.second + time.nano / 1000000000

/-- A fraction of no, 3, 6 or 9 digits, the fewest that lose nothing. -/
def fractionChars (nano : Nat) : List Char :=
  if nano = 0 then []
  else if nano % 1000000 = 0 then '.' :: Text.padded 3 (nano / 1000000)
  else if nano % 1000 = 0 then '.' :: Text.padded 6 (nano / 1000)
  else '.' :: Text.padded 9 nano

def chars (time : Time) : List Char :=
  Text.padded 2 time.hour ++ ':' :: Text.padded 2 time.minute ++
    ':' :: Text.padded 2 time.shownSecond ++ fractionChars (time.nano % 1000000000)

def text (time : Time) : String := String.ofList time.chars

def readMinutes (text : List Char) : Except Fault (Nat × Nat × List Char) := do
  let (hour, text) ← readField 2 0 23 text
  let text ← readSeparator ':' text
  let (minute, text) ← readField 2 0 59 text
  .ok (hour, minute, text)

def complete (hour minute second nano : Nat) (rest : List Char) : Except Fault Time :=
  if rest.isEmpty then
    match ofClock? hour minute second nano with
    | some time => .ok time
    | none => .error .outOfRange
  else .error .trailing

def ofSecondsChars (text : List Char) : Except Fault Time := do
  let (hour, minute, text) ← readMinutes text
  let text ← readSeparator ':' text
  let (second, text) ← readField 2 0 60 text
  match text with
  | '.' :: fraction => do
    let (nano, rest) ← readFraction fraction
    complete hour minute second nano rest
  | rest => complete hour minute second 0 rest

def ofMinutesChars (text : List Char) : Except Fault Time := do
  let (hour, minute, rest) ← readMinutes text
  complete hour minute 0 0 rest

/-- Reads a time with seconds, else one without; a fault is that of the second attempt. -/
def ofText (text : String) : Except Fault Time :=
  match ofSecondsChars text.toList with
  | .ok time => .ok time
  | .error _ => ofMinutesChars text.toList

end Time

structure Duration where
  micros : Int
deriving DecidableEq, Repr

namespace Duration

def compare (a b : Duration) : Ordering := Ord.compare a.micros b.micros

def ofSeconds? (seconds : Int) : Option Duration :=
  if -9223372036854775 ≤ seconds ∧ seconds ≤ 9223372036854775 then
    some { micros := seconds * 1000000 }
  else none

/-- Seconds with a fraction, to the nearest microsecond. -/
def ofBinary64? (seconds : Binary64) : Option Duration :=
  let limit := Binary64.ofInt 9223372036854
  if limit.magnitude < seconds.magnitude then none
  else some { micros := (seconds.scale 1000000 1).round }

/-- Whole seconds as an integer, others as a floating point number. -/
def toNumber (d : Duration) : Number :=
  if d.micros % 1000000 = 0 then .int (d.micros / 1000000)
  else .float ((Binary64.ofInt d.micros).scale 1 1000000)

end Duration

end ModelSurface
