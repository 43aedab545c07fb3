/-!
Natural numbers of at most 64 bits in base 62, with the digits `0-9A-Za-z`. A number that fits in a
word of the machine is the one that its digits stand for.
-/

namespace ModelSurface.Text.Base62

def digit (n : Nat) : Char :=
  if n < 10 then Char.ofNat (48 + n)
  else if n < 36 then Char.ofNat (55 + n)
  else Char.ofNat (61 + n)

def value? (c : Char) : Option Nat :=
  if '0' ≤ c ∧ c ≤ '9' then some (c.toNat - 48)
  else if 'A' ≤ c ∧ c ≤ 'Z' then some (c.toNat - 55)
  else if 'a' ≤ c ∧ c ≤ 'z' then some (c.toNat - 61)
  else none

def digits (n : Nat) (tail : List Char) : List Char :=
  if h : n < 62 then digit n :: tail else digits (n / 62) (digit (n % 62) :: tail)
termination_by n
decreasing_by omega

def encode (n : Nat) : String := String.ofList (digits n [])

/-- The number a text stands for, unless it is empty, has another character or is too large. -/
def decode? (text : String) : Option Nat :=
  match text.toList with
  | [] => none
  | chars =>
    match chars.foldlM (fun n c => (value? c).map fun d => n * 62 + d) 0 with
    | some n => if n < Nat.pow 2 64 then some n else none
    | none => none

/-! ### Numbers and their digits -/

theorem value?_digit_all : ∀ d < 62, value? (digit d) = some d := by decide

theorem value?_digit {d : Nat} (h : d < 62) : value? (digit d) = some d := value?_digit_all d h

/-- Reads one digit behind the digits of a number. -/
def push (n : Nat) (c : Char) : Option Nat := (value? c).map fun d => n * 62 + d

theorem push_digit (n : Nat) {d : Nat} (h : d < 62) : push n (digit d) = some (n * 62 + d) := by
  rw [push, value?_digit h, Option.map_some]

/-- The digits of a number, with others behind them, are read as the number first. -/
theorem foldlM_digits (n : Nat) (tail : List Char) :
    (digits n tail).foldlM push 0 = tail.foldlM push n := by
  rw [digits]
  split
  · rename_i hsmall
    rw [List.foldlM_cons, push_digit 0 hsmall, Nat.zero_mul, Nat.zero_add]
    rfl
  · have hlast : n % 62 < 62 := Nat.mod_lt n (by decide)
    rw [foldlM_digits (n / 62), List.foldlM_cons, push_digit _ hlast, Nat.div_add_mod']
    rfl
termination_by n
decreasing_by omega

theorem digits_ne_nil (n : Nat) (tail : List Char) : digits n tail ≠ [] := by
  rw [digits]
  split
  · exact List.cons_ne_nil _ _
  · exact digits_ne_nil (n / 62) _
termination_by n
decreasing_by omega

/-- What is written in base 62 is read as the number that was written. -/
theorem decode?_encode {n : Nat} (h : n < Nat.pow 2 64) : decode? (encode n) = some n := by
  have hread : (digits n []).foldlM push 0 = some n := foldlM_digits n []
  unfold decode? encode
  rw [String.toList_ofList]
  split
  · rename_i hnil
    exact absurd hnil (digits_ne_nil n [])
  · have hpush : (digits n []).foldlM (fun n c => (value? c).map fun d => n * 62 + d) 0 =
        some n := hread
    rw [hpush]
    exact if_pos h

end ModelSurface.Text.Base62
