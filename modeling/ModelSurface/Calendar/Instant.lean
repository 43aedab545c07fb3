import ModelSurface.Calendar.Date
import ModelSurface.Calendar.Time

/-!
Instants in UTC, read from texts with an offset.
-/

namespace ModelSurface

open Calendar

/-- A date and a time of day in UTC. -/
structure Instant where
  date : Date
  time : Time
deriving DecidableEq

namespace Instant

def compare (a b : Instant) : Ordering := (a.date.compare b.date).then (a.time.compare b.time)

def text (instant : Instant) : String :=
  String.ofList (instant.date.chars ++ 'T' :: instant.time.chars ++ ['Z'])

/-- The instant at which a clock `offset` minutes ahead of UTC shows the date and time. -/
def ofLocal? (date : Date) (time : Time) (offset : Int) : Option Instant := do
  let minutes := (time.hour * 60 + time.minute : Nat) - offset
  let ofDay := (minutes % 1440).toNat
  let time ← Time.of? (ofDay / 60) (ofDay % 60) time.second time.nano
  let date ←
    if minutes < 0 then date.previous?
    else if 1440 ≤ minutes then date.next?
    else some date
  some { date := date, time := time }

/-- Two digits of an offset. What is left of the text is measured in octets. -/
def readOffsetDigits : List Char → Except Fault (Nat × List Char)
  | [] => .error .premature
  | [c] => .error (if c.utf8Size < 2 then .premature else .invalid)
  | a :: b :: rest =>
    if a.isDigit && b.isDigit then .ok (Text.digitsValue [a, b], rest) else .error .invalid

/-- An offset in minutes: `Z`, or a sign, hours and minutes. -/
def readOffset (text : List Char) : Except Fault (Int × List Char) := do
  let signed (negative : Bool) (text : List Char) : Except Fault (Int × List Char) := do
    let (hours, text) ← readOffsetDigits text
    let text ← readSeparator ':' text
    let (minutes, text) ← readOffsetDigits text
    if 60 ≤ minutes then .error .outOfRange
    else
      let offset : Int := (hours * 60 + minutes : Nat)
      .ok (if negative then -offset else offset, text)
  match text with
  | [] => .error .premature
  | 'Z' :: rest => .ok (0, rest)
  | 'z' :: rest => .ok (0, rest)
  | '+' :: rest => signed false rest
  | '-' :: rest => signed true rest
  | '−' :: rest => signed true rest
  | _ => .error .invalid

def readDate (text : List Char) : Except Fault (Date × List Char) := do
  let (century, text) ← readTwo text
  let (year, text) ← readTwo text
  let text ← readSeparator '-' text
  let (month, text) ← readTwo text
  let text ← readSeparator '-' text
  let (day, text) ← readTwo text
  match Date.of? (century * 100 + year : Nat) month day with
  | some date => .ok (date, text)
  | none => .error .outOfRange

def readTime (text : List Char) : Except Fault (Time × List Char) := do
  let (hour, text) ← readTwo text
  let text ← readSeparator ':' text
  let (minute, text) ← readTwo text
  let text ← readSeparator ':' text
  let (second, text) ← readTwo text
  let (nano, text) ← match text with
    | '.' :: fraction => readFraction fraction
    | text => .ok (0, text)
  match Time.ofClock? hour minute second nano with
  | some time => .ok (time, text)
  | none => .error .outOfRange

/-- Reads a date, a `T` or a blank, a time and an offset of less than a day. A text of fewer than
nineteen octets is too short, whatever it holds. -/
def ofText (text : String) : Except Fault Instant := do
  if text.utf8ByteSize < 19 then .error .premature
  else
    let (date, rest) ← readDate text.toList
    match rest with
    | c :: rest =>
      if c == 'T' || c == 't' || c == ' ' then
        let (time, rest) ← readTime rest
        let (offset, rest) ← readOffset rest
        if !rest.isEmpty then .error .trailing
        else if offset < -1439 ∨ 1439 < offset then .error .outOfRange
        else
          match ofLocal? date time offset with
          | some instant => .ok instant
          | none => .error .outOfRange
      else .error .invalid
    | [] => .error .invalid

end Instant

end ModelSurface
