import ModelSurface.Numeric.Binary64

/-!
The shortest decimal that reads back as a given binary64 number, and the two ways it is laid out:
with a fraction or an exponent in documents, positionally in messages.
-/

namespace ModelSurface

/-- `digits * 10 ^ exponent`, its digits without a trailing zero unless the number is zero. -/
structure DecimalDigits where
  digits : List Char
  exponent : Int
deriving DecidableEq, Repr

namespace DecimalDigits

/-- The power of ten just above the number: the decimal point stands before `point` digits. -/
def point (d : DecimalDigits) : Int := d.exponent + d.digits.length

/-- Moves trailing zeros of the digits into the exponent. -/
def ofNat (n : Nat) (exponent : Int) : DecimalDigits :=
  let digits := Nat.toDigits 10 n
  let kept := (digits.reverse.dropWhile (· == '0')).reverse
  if kept.isEmpty then { digits := ['0'], exponent := 0 }
  else { digits := kept, exponent := exponent + (digits.length - kept.length : Nat) }

/-- All digits, written around the decimal point; `whole` is what follows an integer. -/
def positional (d : DecimalDigits) (whole : List Char) : List Char :=
  if 0 ≤ d.exponent then d.digits ++ List.replicate d.exponent.toNat '0' ++ whole
  else if 0 < d.point then
    d.digits.take d.point.toNat ++ '.' :: d.digits.drop d.point.toNat
  else '0' :: '.' :: List.replicate (-d.point).toNat '0' ++ d.digits

def scientific (d : DecimalDigits) : List Char :=
  let power := d.point - 1
  let tail := d.digits.drop 1
  d.digits.take 1 ++ (if tail.isEmpty then [] else '.' :: tail) ++
    'e' :: (if power < 0 then '-' else '+') :: Nat.toDigits 10 power.natAbs

end DecimalDigits

namespace Binary64

/-- Compares `a * 10 ^ i` with `b * 2 ^ j`. -/
def compareScaled (a : Nat) (i : Int) (b : Nat) (j : Int) : Ordering :=
  Ord.compare (a * Nat.pow 10 i.toNat * Nat.pow 2 (-j).toNat)
    (b * Nat.pow 2 j.toNat * Nat.pow 10 (-i).toNat)

/-- Whether `n * 10 ^ i` rounds to the number with significand `m` and power of two `e`. Just
above a power of two the gap below is half the gap above. -/
def roundsTo (m : Nat) (e : Int) (n : Nat) (i : Int) : Bool :=
  let narrow := m == Nat.pow 2 52 && decide (-1074 < e)
  let low := compareScaled n i (if narrow then 4 * m - 1 else 4 * m - 2) (e - 2)
  let high := compareScaled n i (4 * m + 2) (e - 2)
  let closed := m % 2 == 0
  (low == .gt || (closed && low == .eq)) && (high == .lt || (closed && high == .eq))

/-- The least `k` with `m * 2 ^ e < 10 ^ k`, found from the binary length. -/
def decimalPoint (m : Nat) (e : Int) : Int :=
  let guess := ((m.log2 : Int) + e) * 30103 / 100000
  ([guess - 1, guess, guess + 1, guess + 2].find? fun k =>
    compareScaled 1 k m e == .gt).getD (guess + 3)

/-- The multiple of `10 ^ i` that rounds to `m * 2 ^ e`: the nearer of its two neighbours, at an
exact tie the even one. -/
def onGrid? (m : Nat) (e i : Int) : Option Nat :=
  let num := m * Nat.pow 2 e.toNat * Nat.pow 10 (-i).toNat
  let den := Nat.pow 2 (-e).toNat * Nat.pow 10 i.toNat
  let low := num / den
  match roundsTo m e low i, roundsTo m e (low + 1) i with
  | true, true => some (roundHalfEven num den)
  | true, false => some low
  | false, true => some (low + 1)
  | false, false => none

/-- The fewest decimal digits that read back as the magnitude, and of those the nearest. -/
def shortest (x : Binary64) : DecimalDigits :=
  if x.magnitude = 0 then { digits := ['0'], exponent := 0 }
  else
    let (m, e) := x.parts
    let point := decimalPoint m e
    let found := (List.range 17).findSome? fun (k : Nat) =>
      let i := point - (k + 1)
      (onGrid? m e i).map fun n => DecimalDigits.ofNat n i
    found.getD (DecimalDigits.ofNat (m * Nat.pow 2 e.toNat * Nat.pow 5 (-e).toNat) (min e 0))

/-- The text of a number in a document: always with a fraction or an exponent, positional from
`1e-5` up to `1e16`. -/
def text (x : Binary64) : String :=
  let d := x.shortest
  let body :=
    if -5 < d.point ∧ d.point ≤ 16 then d.positional ['.', '0'] else d.scientific
  String.ofList (if x.negative then '-' :: body else body)

/-- The number written without an exponent, an integer without a fraction. -/
def plainText (x : Binary64) : String :=
  let body := x.shortest.positional []
  String.ofList (if x.negative then '-' :: body else body)

end Binary64

end ModelSurface
