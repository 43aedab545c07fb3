import ModelSurface.Text.Basic
import ModelSurface.Text.Ranges

/-!
Numbers and separators in the texts of dates and times, and what can be wrong with them.
-/

namespace ModelSurface.Calendar

/-- What can be wrong with the text of a date, a time or an instant. -/
inductive Fault where
  | premature
  | invalid
  | outOfRange
  | trailing
deriving DecidableEq, Repr

def Fault.message : Fault → String
  | .premature => "premature end of input"
  | .invalid => "input contains invalid characters"
  | .outOfRange => "input is out of range"
  | .trailing => "trailing input"

/-- Between one and `limit` digits. -/
def readNumber (limit : Nat) (text : List Char) : Except Fault (Nat × List Char) :=
  match text, Text.spanDigitsUpTo limit text with
  | [], _ => .error .premature
  | _, ([], _) => .error .invalid
  | _, (digits, rest) => .ok (Text.digitsValue digits, rest)

/-- A number that has to lie between two bounds, white space in front of it skipped. -/
def readField (limit low high : Nat) (text : List Char) : Except Fault (Nat × List Char) := do
  let (n, rest) ← readNumber limit (Text.dropBlanks text)
  if low ≤ n ∧ n ≤ high then .ok (n, rest) else .error .outOfRange

def readSeparator (separator : Char) : List Char → Except Fault (List Char)
  | [] => .error .premature
  | c :: rest => if c == separator then .ok rest else .error .invalid

def readTwo : List Char → Except Fault (Nat × List Char)
  | a :: b :: rest =>
    if a.isDigit && b.isDigit then .ok (Text.digitsValue [a, b], rest) else .error .invalid
  | _ => .error .invalid

/-- The digits of a fraction in billionths; digits past the ninth are dropped. -/
def readFraction (text : List Char) : Except Fault (Nat × List Char) := do
  let (_, _) ← readNumber 9 text
  let (digits, rest) := Text.spanDigits text
  let kept := digits.take 9
  .ok (Text.digitsValue kept * Nat.pow 10 (9 - kept.length), rest)

end ModelSurface.Calendar
