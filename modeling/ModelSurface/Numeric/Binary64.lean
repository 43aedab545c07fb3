import ModelSurface.Numeric.Rounding

/-!
Finite binary64 numbers with exact arithmetic: a result is computed as a quotient of natural
numbers and rounded once, to nearest, an exact half to the even neighbour.
-/

namespace ModelSurface

/-- A finite binary64 number. `magnitude` numbers the magnitudes from zero upwards, so that their
order is the order of the numbers they stand for. -/
structure Binary64 where
  negative : Bool
  magnitude : Nat
  finite : magnitude < 0x7FF0000000000000
deriving DecidableEq, Repr

namespace Binary64

def zero (negative : Bool) : Binary64 :=
  { negative := negative, magnitude := 0, finite := by decide }

instance : Inhabited Binary64 := ⟨zero false⟩

def largest (negative : Bool) : Binary64 :=
  { negative := negative, magnitude := 0x7FEFFFFFFFFFFFFF, finite := by decide }

/-- The integer that orders the numbers; both zeros have the same one. -/
def rank (x : Binary64) : Int :=
  if x.negative then -(x.magnitude : Int) else x.magnitude

/-- Numeric equality: the two zeros are equal. -/
def same (x y : Binary64) : Bool := x.rank == y.rank

def compare (x y : Binary64) : Ordering := Ord.compare x.rank y.rank

theorem same_self (x : Binary64) : x.same x = true := by simp [same]

theorem compare_eq_iff (x y : Binary64) : x.compare y = .eq ↔ x.same y = true := by
  simp [compare, same]

/-- The significand and the power of two it is multiplied by. -/
def parts (x : Binary64) : Nat × Int :=
  if x.magnitude < Nat.pow 2 52 then (x.magnitude, -1074)
  else (Nat.pow 2 52 + x.magnitude % Nat.pow 2 52, (x.magnitude / Nat.pow 2 52 : Nat) - 1075)

def quotient (x : Binary64) : Nat × Nat :=
  let (m, e) := x.parts
  (m * Nat.pow 2 e.toNat, Nat.pow 2 (-e).toNat)

/-- `num / den` divided by `2 ^ e`, as a quotient. -/
def shifted (num den : Nat) (e : Int) : Nat × Nat :=
  (num * Nat.pow 2 (-e).toNat, den * Nat.pow 2 e.toNat)

/-- The greatest `k` with `2 ^ k ≤ num / den`, for a positive quotient. -/
def binaryExponent (num den : Nat) : Int :=
  let guess : Int := (num.log2 : Int) - den.log2
  let (n, d) := shifted num den guess
  if d ≤ n then guess else guess - 1

/-- The magnitude nearest to `num / den`, which may lie beyond the finite ones. -/
def nearestMagnitude (num den : Nat) : Nat :=
  if num = 0 then 0 else
    let e := max (binaryExponent num den - 52) (-1074)
    let (n, d) := shifted num den e
    (e + 1074).toNat * Nat.pow 2 52 + roundHalfEven n d

/-- The number nearest to `num / den`, or none when it is too large to be finite. -/
def nearest? (negative : Bool) (num den : Nat) : Option Binary64 :=
  if h : nearestMagnitude num den < 0x7FF0000000000000 then
    some { negative := negative, magnitude := nearestMagnitude num den, finite := h }
  else none

def nearest (negative : Bool) (num den : Nat) : Binary64 :=
  (nearest? negative num den).getD (largest negative)

def ofInt (i : Int) : Binary64 := nearest (decide (i < 0)) i.natAbs 1

/-- `x * num / den`, rounded once. -/
def scale (x : Binary64) (num den : Nat) : Binary64 :=
  let (n, d) := x.quotient
  nearest x.negative (n * num) (d * den)

/-- The nearest integer; a half goes away from zero. -/
def round (x : Binary64) : Int :=
  let (n, d) := x.quotient
  if x.negative then -(roundHalfUp n d : Int) else roundHalfUp n d

/-- The number nearest to `digits * 10 ^ exponent`, or none when it is too large to be finite.
Exponents that put the number far outside the finite range are settled without computing the
power. -/
def ofDecimal? (negative : Bool) (digits : Nat) (exponent : Int) : Option Binary64 :=
  if digits = 0 then some (zero negative)
  else
    let top := exponent + (Nat.toDigits 10 digits).length
    if 400 < top then none
    else if top < -400 then some (zero negative)
    else nearest? negative (digits * Nat.pow 10 exponent.toNat) (Nat.pow 10 (-exponent).toNat)

end Binary64

end ModelSurface
