import ModelSurface.Numeric.Rounding
import ModelSurface.Text.Basic

/-!
Decimal numbers with a mantissa of 96 bits and at most 28 places, which keep the number of places
they are written with.
-/

namespace ModelSurface

/-- `± mantissa / 10 ^ scale`. Zero has no sign. -/
structure Decimal where
  negative : Bool
  mantissa : Nat
  scale : Nat
  mantissa_lt : mantissa < Nat.pow 2 96
  scale_le : scale ≤ 28
  unsigned_zero : mantissa = 0 → negative = false
deriving DecidableEq

namespace Decimal

inductive Fault where
  | empty
  | secondPoint
  | leadingSeparator
  | unknownCharacter
  | noDigits
  | tooManyDigits
  | roundedTooLarge
  /-- No plain number, and no number with an exponent either. -/
  | unreadable
  | scaleTooLarge (scale : Nat)
  | tooLarge
deriving DecidableEq, Repr

def Fault.message : Fault → String
  | .empty => "Invalid decimal: empty"
  | .secondPoint => "Invalid decimal: two decimal points"
  | .leadingSeparator => "Invalid decimal: must start lead with a number"
  | .unknownCharacter => "Invalid decimal: unknown character"
  | .noDigits => "Invalid decimal: no digits found"
  | .tooManyDigits => "Invalid decimal: overflow from too many digits"
  | .roundedTooLarge => "Invalid decimal: overflow from mantissa after rounding"
  | .unreadable => "Failed to parse"
  | .scaleTooLarge scale => s!"Scale exceeds the maximum precision allowed: {scale} > 28"
  | .tooLarge => "Number exceeds maximum value that can be represented."

/-- The number with the given parts, the sign of zero dropped. -/
def of? (negative : Bool) (mantissa scale : Nat) : Option Decimal :=
  if h : mantissa < Nat.pow 2 96 ∧ scale ≤ 28 then
    some
      { negative := negative && mantissa != 0, mantissa := mantissa, scale := scale
        mantissa_lt := h.1, scale_le := h.2
        unsigned_zero := by intro hz; simp [hz] }
  else none

def build (negative : Bool) (mantissa scale : Nat) : Except Fault Decimal :=
  if 28 < scale then .error (.scaleTooLarge scale)
  else match of? negative mantissa scale with
    | some d => .ok d
    | none => .error .tooLarge

/-- The number in units of the last place a decimal can have. -/
def units (d : Decimal) : Int :=
  let n : Int := (d.mantissa * Nat.pow 10 (28 - d.scale) : Nat)
  if d.negative then -n else n

/-- Equality of the numbers, whatever places they are written with. -/
def same (a b : Decimal) : Bool := a.units == b.units

def compare (a b : Decimal) : Ordering := Ord.compare a.units b.units

theorem same_self (d : Decimal) : d.same d = true := by simp [same]

theorem compare_eq_iff (a b : Decimal) : a.compare b = .eq ↔ a.same b = true := by
  simp [compare, same]

def chars (d : Decimal) : List Char :=
  let digits := Text.padded (d.scale + 1) d.mantissa
  let whole := digits.take (digits.length - d.scale)
  let places := digits.drop (digits.length - d.scale)
  (if d.negative then ['-'] else []) ++ whole ++ (if d.scale = 0 then [] else '.' :: places)

def text (d : Decimal) : String := String.ofList d.chars

def misplaced (c : Char) : Fault :=
  if c == '.' then .secondPoint
  else if c == '_' then .leadingSeparator
  else .unknownCharacter

structure Scan where
  negative : Bool
  mantissa : Nat
  scale : Nat
  point : Bool
  digits : Bool

/-- Rounds at the first digit that has no place left. A mantissa that outgrows its bits gives up
its last place. -/
def Scan.round (scan : Scan) (up : Bool) : Except Fault Decimal :=
  let mantissa := if up then scan.mantissa + 1 else scan.mantissa
  if mantissa < Nat.pow 2 96 then build scan.negative mantissa scan.scale
  else if scan.scale = 0 then .error .roundedTooLarge
  else build scan.negative ((mantissa + 4) / 10) (scan.scale - 1)

/-- Ends a number whose places are all taken. Only digits and separators may follow, and the first
of the digits decides how the number is rounded. -/
def Scan.finish (scan : Scan) (rest : List Char) : Except Fault Decimal :=
  match rest.find? fun c => !c.isDigit && c != '_' with
  | some c => .error (misplaced c)
  | none => scan.round ((rest.find? Char.isDigit).any fun c => '5' ≤ c)

def Scan.run (scan : Scan) : List Char → Except Fault Decimal
  | [] => if scan.digits then build scan.negative scan.mantissa scan.scale else .error .noDigits
  | c :: rest =>
    if scan.point && scan.scale == 28 then scan.finish (c :: rest)
    else if c.isDigit then
      let mantissa := scan.mantissa * 10 + (c.toNat - 48)
      if mantissa < Nat.pow 2 96 then
        run { scan with
          mantissa := mantissa, digits := true
          scale := if scan.point then scan.scale + 1 else 0 } rest
      else if scan.point then scan.finish (c :: rest)
      else .error .tooManyDigits
    else if c == '.' && !scan.point then run { scan with point := true } rest
    else if c == '_' && scan.digits then run scan rest
    else .error (misplaced c)

def ofPlainChars (text : List Char) : Except Fault Decimal :=
  let scan (negative : Bool) : Scan :=
    { negative := negative, mantissa := 0, scale := 0, point := false, digits := false }
  match text with
  | [] => .error .empty
  | '-' :: rest => (scan true).run rest
  | '+' :: rest => (scan false).run rest
  | text => (scan false).run text

/-- An exponent without a minus sign: a number of 32 bits, which may have a plus sign. -/
def readPower? (text : List Char) : Option Nat :=
  let digits := match text with
    | '+' :: rest => rest
    | text => text
  if digits.isEmpty || !digits.all Char.isDigit then none
  else
    let n := Text.digitsValue digits
    if n < Nat.pow 2 32 then some n else none

/-- Moves the point to the left; places beyond the last are rounded away. -/
def shiftDown (d : Decimal) (power : Nat) : Except Fault Decimal :=
  if 28 < power then .error (.scaleTooLarge power)
  else if d.scale + power ≤ 28 then build d.negative d.mantissa (d.scale + power)
  else build d.negative (roundHalfUp d.mantissa (Nat.pow 10 (d.scale + power - 28))) 28

def shiftUp (d : Decimal) (power : Nat) : Except Fault Decimal :=
  if power ≤ d.scale then build d.negative d.mantissa (d.scale - power)
  else if 28 < power then .error (.scaleTooLarge power)
  else build d.negative (d.mantissa * Nat.pow 10 (power - d.scale)) 0

def ofScientificChars (text : List Char) : Except Fault Decimal :=
  let isMark (c : Char) : Bool := c == 'e' || c == 'E'
  match text.dropWhile (!isMark ·) with
  | [] => .error .unreadable
  | _ :: power => do
    let d ← ofPlainChars (text.takeWhile (!isMark ·))
    match power with
    | '-' :: power =>
      match readPower? power with
      | some power => d.shiftDown power
      | none => .error .unreadable
    | power =>
      match readPower? power with
      | some power => d.shiftUp power
      | none => .error .unreadable

/-- Reads a plain number, else one with an exponent; a fault is that of the second attempt. -/
def ofText (text : String) : Except Fault Decimal :=
  match ofPlainChars text.toList with
  | .ok d => .ok d
  | .error _ => ofScientificChars text.toList

end Decimal

end ModelSurface
