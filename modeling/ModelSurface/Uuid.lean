import ModelSurface.Json.Basic
import ModelSurface.Json.Token

/-!
Universally unique identifiers and their texts.
-/

namespace ModelSurface

structure Uuid where
  value : Nat
  value_lt : value < Nat.pow 2 128
deriving DecidableEq, Repr

namespace Uuid

/-- What can be wrong with the text of an identifier. Positions count octets. -/
inductive Fault where
  | character (c : Char) (position : Nat)
  | length (found : Nat)
  | groupCount (found : Nat)
  | groupLength (group expected found : Nat)
deriving DecidableEq, Repr

def Fault.message : Fault → String
  | .character c position => s!"invalid character: found `{c}` at {position}"
  | .length found => s!"invalid length: found {found}"
  | .groupCount found => s!"invalid group count: expected 5, found {found}"
  | .groupLength group expected found =>
    s!"invalid group length in group {group}: expected {expected}, found {found}"

def compare (a b : Uuid) : Ordering := Ord.compare a.value b.value

instance : Std.TransCmp compare := inferInstanceAs (Std.TransCmp (compareOn Uuid.value))

instance : Std.LawfulEqCmp compare where
  eq_of_compare {a b} h := by
    have hvalue : a.value = b.value := Std.LawfulEqCmp.eq_of_compare h
    cases a
    cases b
    simpa using hvalue

def ofNat (n : Nat) : Uuid :=
  { value := n % Nat.pow 2 128, value_lt := Nat.mod_lt _ (by decide) }

def random (seed : Nat) : Uuid :=
  let low := seed % Nat.pow 2 62
  let mid := seed / Nat.pow 2 62 % Nat.pow 2 12
  let high := seed / Nat.pow 2 74 % Nat.pow 2 48
  ofNat (high * Nat.pow 2 80 + 4 * Nat.pow 2 76 + mid * Nat.pow 2 64 + 2 * Nat.pow 2 62 + low)

/-- The digits of the lowest `count` hexadecimal places, most significant first. -/
def hexDigits : Nat → Nat → List Char
  | 0, _ => []
  | count + 1, n => hexDigits count (n / 16) ++ [Json.hexDigit (n % 16)]

def chars (u : Uuid) : List Char :=
  let digits := hexDigits 32 u.value
  digits.take 8 ++ '-' :: (digits.drop 8).take 4 ++ '-' :: (digits.drop 12).take 4 ++
    '-' :: (digits.drop 16).take 4 ++ '-' :: digits.drop 20

def text (u : Uuid) : String := String.ofList u.chars

def inBraces? : List Char → Option (List Char)
  | '\x7b' :: inner => if inner.getLast? == some '\x7d' then some inner.dropLast else none
  | _ => none

/-- The part of a text behind `urn:uuid:`, in whatever case that is written. -/
def behindUrn? (text : List Char) : Option (List Char) :=
  if (text.take 9).map Char.toLower = "urn:uuid:".toList then some (text.drop 9) else none

def octets (text : List Char) : Nat := text.foldl (fun n c => n + c.utf8Size) 0

/-- The first character that is neither a digit nor a hyphen. -/
def strayCharacter? (position : Nat) : List Char → Option Fault
  | [] => none
  | c :: rest =>
    if c == '-' || (Json.hexValue? c).isSome then strayCharacter? (position + c.utf8Size) rest
    else some (.character c position)

def groupStarts : List (Nat × Nat) := [(0, 8), (9, 4), (14, 4), (19, 4)]

def hyphens (position : Nat) : List Char → List Nat
  | [] => []
  | c :: rest =>
    if c == '-' then position :: hyphens (position + 1) rest else hyphens (position + 1) rest

/-- The first of the groups in front of a hyphen that has a wrong length. -/
def wrongGroup? (group : Nat) : List (Nat × Nat) → List Nat → Option Fault
  | (start, expected) :: starts, hyphen :: rest =>
    if hyphen = start + expected then wrongGroup? (group + 1) starts rest
    else some (.groupLength group expected (hyphen - start))
  | _, _ => none

/-- How much of a text is looked at to tell what is wrong with it. -/
structure Scope where
  text : List Char
  offset : Nat := 0
  /-- Whether it might also have been written without hyphens. -/
  bare : Bool := false

def explain (size : Nat) (scope : Scope) : Fault :=
  match strayCharacter? scope.offset scope.text with
  | some fault => fault
  | none =>
    let found := hyphens 0 scope.text
    if found.isEmpty && scope.bare then .length size
    else if found.length ≠ 4 then .groupCount (found.length + 1)
    else (wrongGroup? 0 groupStarts found).getD (.groupLength 4 12 (size - 24))

/-- What is looked at of a text that has none of the lengths of an identifier. -/
def scopeOf (text : List Char) : Scope :=
  match inBraces? text, behindUrn? text with
  | some inner, _ => { text := inner, offset := 1 }
  | none, some inner => { text := inner, offset := 9 }
  | none, none => { text := text, bare := true }

def hexValueOf? (digits : List Char) : Option Nat :=
  digits.foldlM (fun n c => (Json.hexValue? c).map fun d => n * 16 + d) 0

def ofHyphenated? (text : List Char) : Option Nat :=
  if text.length = 36 ∧ hyphens 0 text = [8, 13, 18, 23] then
    hexValueOf? (text.filter (· ≠ '-'))
  else none

/-- The hyphenated digits of a text that has the length for them: with 36 octets it is all of the
text, with 38 what stands in braces, with 45 what follows `urn:uuid:`. -/
def hyphenated? (text : List Char) : Option (List Char) :=
  match octets text with
  | 36 => some text
  | 38 => inBraces? text
  | 45 => behindUrn? text
  | _ => none

/-- Reads thirty-two digits, or hyphenated ones that may stand in braces or behind `urn:uuid:`.
What is wrong with a text of the right length is told of its digits alone; a text that is longer
than any identifier is only told so. -/
def ofText (text : String) : Except Fault Uuid :=
  let chars := text.toList
  let size := octets chars
  if size = 32 then
    match hexValueOf? chars with
    | some n => .ok (ofNat n)
    | none => .error (explain size { text := chars, bare := true })
  else
    match hyphenated? chars with
    | some inner =>
      match ofHyphenated? inner with
      | some n => .ok (ofNat n)
      | none => .error (explain 36 { text := inner })
    | none => .error (if 45 < size then .length size else explain size (scopeOf chars))

end Uuid

end ModelSurface
