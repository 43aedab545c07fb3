import ModelSurface.Json.Basic
import ModelSurface.Text.Basic

/-!
The tokens of a JSON text, read one character at a time. A text that breaks off or strays from
the grammar ends in a broken token, so that everything before the fault is still there.
-/

namespace ModelSurface.Json

inductive Fault where
  | unfinished
  | malformed
deriving DecidableEq, Repr

inductive Token where
  | openArr
  | closeArr
  | openObj
  | closeObj
  | comma
  | colon
  | null
  | bool (value : Bool)
  | num (value : Number)
  | str (value : String)
  | broken (fault : Fault)
  | brokenStr (fault : Fault)
deriving DecidableEq, Repr

/-- The part of a number read so far; digits are kept last one first. -/
inductive NumberScan where
  | sign
  | whole (negative : Bool) (digits : List Char)
  | point (negative : Bool) (whole : List Char)
  | fraction (negative : Bool) (whole digits : List Char)
  | mark (negative : Bool) (whole fraction : List Char)
  | markSign (negative : Bool) (whole fraction : List Char) (down : Bool)
  | power (negative : Bool) (whole fraction : List Char) (down : Bool) (digits : List Char)

/-- Where a reader stands between two characters. Characters read are kept last one first. -/
inductive Scan where
  | ready
  /-- Inside a literal of which these characters are missing. -/
  | word (missing : List Char) (token : Token)
  | number (scan : NumberScan)
  | string (read : List Char)
  | escape (read : List Char)
  /-- Inside the digits of a code unit, after the given number of octets. -/
  | unit (read : List Char) (high : Option Nat) (octets : Nat) (value : Option Nat)
  /-- Behind a high surrogate, before the backslash of the low one. -/
  | pair (read : List Char) (high : Nat)
  | pairEscape (read : List Char) (high : Nat)
  | halted

def isBlank (c : Char) : Bool := c == ' ' || c == '\t' || c == '\n' || c == '\r'

def hexValue? (c : Char) : Option Nat :=
  if '0' ≤ c ∧ c ≤ '9' then some (c.toNat - 48)
  else if 'a' ≤ c ∧ c ≤ 'f' then some (c.toNat - 87)
  else if 'A' ≤ c ∧ c ≤ 'F' then some (c.toNat - 55)
  else none

def unescape? : Char → Option Char
  | '"' => some '"'
  | '\\' => some '\\'
  | '/' => some '/'
  | 'b' => some '\x08'
  | 'f' => some '\x0c'
  | 'n' => some '\n'
  | 'r' => some '\r'
  | 't' => some '\t'
  | _ => none

/-- A number without fraction and exponent: an integer if it fits 64 bits. Minus zero is a
floating point number. -/
def plainNumber? (negative : Bool) (digits : List Char) : Option Number :=
  let value := Text.digitsValue digits
  if negative then
    if 0 < value ∧ value ≤ 9223372036854775808 then some (.int (-value))
    else (Binary64.ofDecimal? true value 0).map .float
  else if value ≤ 18446744073709551615 then some (.int value)
  else (Binary64.ofDecimal? false value 0).map .float

def floatNumber? (negative : Bool) (whole fraction : List Char) (exponent : Int) : Option Number :=
  (Binary64.ofDecimal? negative (Text.digitsValue (whole ++ fraction))
    (exponent - fraction.length)).map .float

namespace NumberScan

/-- The number read, if it may end here; a number too large for its type is broken. -/
def token : NumberScan → Token
  | .whole negative digits => ofNumber? (plainNumber? negative digits.reverse)
  | .fraction negative lead digits =>
    ofNumber? (floatNumber? negative lead.reverse digits.reverse 0)
  | .power negative lead frac down digits =>
    let power : Int := Text.digitsValue digits.reverse
    ofNumber? (floatNumber? negative lead.reverse frac.reverse (if down then -power else power))
  | _ => .broken .unfinished
where
  ofNumber? : Option Number → Token
    | some n => .num n
    | none => .broken .malformed

inductive Step where
  | more (scan : NumberScan)
  /-- The character is not part of the number, which is complete. -/
  | done
  | fault

def step (scan : NumberScan) (c : Char) : Step :=
  match scan with
  | .sign => if c.isDigit then .more (.whole true [c]) else .fault
  | .whole negative digits =>
    if c.isDigit then
      if digits == ['0'] then .fault else .more (.whole negative (c :: digits))
    else if c == '.' then .more (.point negative digits)
    else if c == 'e' || c == 'E' then .more (.mark negative digits [])
    else .done
  | .point negative lead => if c.isDigit then .more (.fraction negative lead [c]) else .fault
  | .fraction negative lead digits =>
    if c.isDigit then .more (.fraction negative lead (c :: digits))
    else if c == 'e' || c == 'E' then .more (.mark negative lead digits)
    else .done
  | .mark negative lead frac =>
    if c.isDigit then .more (.power negative lead frac false [c])
    else if c == '+' || c == '-' then .more (.markSign negative lead frac (c == '-'))
    else .fault
  | .markSign negative lead frac down =>
    if c.isDigit then .more (.power negative lead frac down [c]) else .fault
  | .power negative lead frac down digits =>
    if c.isDigit then .more (.power negative lead frac down (c :: digits)) else .done

end NumberScan

namespace Scan

def start (c : Char) : Scan × List Token :=
  if isBlank c then (.ready, [])
  else match c with
    | '[' => (.ready, [.openArr])
    | ']' => (.ready, [.closeArr])
    | '\x7b' => (.ready, [.openObj])
    | '\x7d' => (.ready, [.closeObj])
    | ',' => (.ready, [.comma])
    | ':' => (.ready, [.colon])
    | '"' => (.string [], [])
    | '-' => (.number .sign, [])
    | 'n' => (.word ['u', 'l', 'l'] .null, [])
    | 't' => (.word ['r', 'u', 'e'] (.bool true), [])
    | 'f' => (.word ['a', 'l', 's', 'e'] (.bool false), [])
    | c => if c.isDigit then (.number (.whole false [c]), []) else (.halted, [.broken .malformed])

def failStr : Scan × List Token := (.halted, [.brokenStr .malformed])

def closeUnit (read : List Char) (high value : Option Nat) : Scan × List Token :=
  match value, high with
  | none, _ => failStr
  | some code, some high =>
    if 0xDC00 ≤ code ∧ code ≤ 0xDFFF then
      (.string (Char.ofNat (0x10000 + (high - 0xD800) * 0x400 + (code - 0xDC00)) :: read), [])
    else failStr
  | some code, none =>
    if 0xDC00 ≤ code ∧ code ≤ 0xDFFF then failStr
    else if 0xD800 ≤ code ∧ code ≤ 0xDBFF then (.pair read code, [])
    else (.string (Char.ofNat code :: read), [])

def step (scan : Scan) (c : Char) : Scan × List Token :=
  match scan with
  | .ready => start c
  | .word [] _ => start c
  | .word (w :: missing) token =>
    if w == c then (if missing.isEmpty then (.ready, [token]) else (.word missing token, []))
    else (.halted, [.broken .malformed])
  | .number digits =>
    match digits.step c with
    | .more digits => (.number digits, [])
    | .fault => (.halted, [.broken .malformed])
    | .done =>
      match digits.token with
      | .num n =>
        let (scan, out) := start c
        (scan, .num n :: out)
      | token => (.halted, [token])
  | .string read =>
    if c == '"' then (.ready, [.str (String.ofList read.reverse)])
    else if c == '\\' then (.escape read, [])
    else if c.toNat < 0x20 then failStr
    else (.string (c :: read), [])
  | .escape read =>
    if c == 'u' then (.unit read none 0 (some 0), [])
    else match unescape? c with
      | some c => (.string (c :: read), [])
      | none => failStr
  | .unit read high octets value =>
    let value := match value, hexValue? c with
      | some n, some d => some (n * 16 + d)
      | _, _ => none
    let octets := octets + c.utf8Size
    if octets < 4 then (.unit read high octets value, []) else closeUnit read high value
  | .pair read high => if c == '\\' then (.pairEscape read high, []) else failStr
  | .pairEscape read high => if c == 'u' then (.unit read (some high) 0 (some 0), []) else failStr
  | .halted => (.halted, [])

def finish : Scan → List Token
  | .ready => []
  | .word _ _ => [.broken .unfinished]
  | .number digits => [digits.token]
  | .halted => []
  | _ => [.brokenStr .unfinished]

/-- The tokens of the rest of a text, up to the first that is broken. -/
def run (scan : Scan) : List Char → List Token
  | [] => scan.finish
  | c :: rest =>
    match scan.step c with
    | (.halted, out) => out
    | (scan, out) => out ++ scan.run rest

end Scan

def tokens (text : String) : List Token := Scan.run .ready text.toList

end ModelSurface.Json
