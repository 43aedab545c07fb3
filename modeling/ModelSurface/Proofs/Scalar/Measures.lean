import Mathlib.Data.List.Lex
import Mathlib.Data.String.Basic
import Mathlib.Order.Compare
import Mathlib.Order.WellFounded
import Mathlib.Order.WithBot
import Mathlib.Tactic.Ring
import ModelSurface.Proofs.Scalar.Reading

/-!
# The measure of a value

Values of one kind are in the order of what they stand for: numbers by their value, times from the
past to the future, texts letter by letter. Every value has a measure that says what it stands for,
and the order of two values of one kind is that of their measures. Null has none and comes first.
-/

namespace ModelSurface

/-! ### Comparisons of measures -/

section Compares

variable {o o' : Ordering} {xs ys : List ℤ}

theorem compares_int (i j : ℤ) : (compare i j).Compares i j := by
  rw [show compare i j = compareOfLessAndEq i j from rfl]
  unfold compareOfLessAndEq
  split
  · assumption
  · split
    · assumption
    · exact lt_of_le_of_ne (not_lt.mp ‹_›) (Ne.symm ‹_›)

theorem compares_nat (m n : ℕ) : (compare m n).Compares (m : ℤ) n := by
  rw [show compare m n = compareOfLessAndEq m n from rfl]
  unfold compareOfLessAndEq
  split
  · exact Int.ofNat_lt.mpr ‹_›
  · split
    · exact congrArg Nat.cast ‹_›
    · exact Int.ofNat_lt.mpr (lt_of_le_of_ne (not_lt.mp ‹_›) (Ne.symm ‹_›))

theorem compares_bool (b c : Bool) :
    (compare b c).Compares (if b then 1 else 0 : ℤ) (if c then 1 else 0) := by
  cases b <;> cases c
  · rfl
  · exact Int.zero_lt_one
  · exact Int.zero_lt_one
  · rfl

/-- The first number decides, unless it is the same. -/
theorem compares_cons {i j : ℤ} (h : o.Compares i j) (h' : o'.Compares xs ys) :
    (o.then o').Compares (i :: xs) (j :: ys) := by
  cases o with
  | lt => exact List.Lex.rel h
  | gt => exact List.Lex.rel h
  | eq =>
      obtain rfl : i = j := h
      cases o' with
      | lt => exact List.Lex.cons h'
      | gt => exact List.Lex.cons h'
      | eq => exact congrArg (i :: ·) h'

theorem compares_singleton {i j : ℤ} (h : o.Compares i j) : o.Compares [i] [j] := by
  have hcons := compares_cons h (show Ordering.eq.Compares ([] : List ℤ) [] from rfl)
  rwa [Ordering.then_eq] at hcons

end Compares

/-! ### Floating point numbers -/

namespace Binary64

/-- What a magnitude stands for, in units of the smallest positive number. -/
def size (magnitude : ℕ) : ℕ :=
  if magnitude < 2 ^ 52 then magnitude
  else (2 ^ 52 + magnitude % 2 ^ 52) * 2 ^ (magnitude / 2 ^ 52 - 1)

theorem strictMono_size : StrictMono size := by
  apply strictMono_nat_of_lt_succ
  intro n
  unfold size
  rcases Nat.lt_or_ge (n + 1) (2 ^ 52) with hsmall | hlarge
  · rw [if_pos (Nat.lt_of_succ_lt hsmall), if_pos hsmall]
    exact n.lt_succ_self
  · rw [if_neg (Nat.not_lt.mpr hlarge)]
    rcases Nat.lt_or_ge n (2 ^ 52) with hn | hn
    · -- the first number whose significand has all its bits
      obtain rfl : n = 2 ^ 52 - 1 := by omega
      decide
    · rw [if_neg (Nat.not_lt.mpr hn)]
      rcases Nat.lt_or_ge (n % 2 ^ 52 + 1) (2 ^ 52) with hinner | hlast
      · rw [show (n + 1) % 2 ^ 52 = n % 2 ^ 52 + 1 by omega,
          show (n + 1) / 2 ^ 52 = n / 2 ^ 52 by omega]
        exact Nat.mul_lt_mul_of_pos_right (by omega) (Nat.two_pow_pos _)
      · -- the significand is full, and the power of two goes up
        rw [show (n + 1) % 2 ^ 52 = 0 by omega,
          show (n + 1) / 2 ^ 52 - 1 = (n / 2 ^ 52 - 1) + 1 by omega]
        calc (2 ^ 52 + n % 2 ^ 52) * 2 ^ (n / 2 ^ 52 - 1)
            < (2 ^ 52 * 2) * 2 ^ (n / 2 ^ 52 - 1) :=
              Nat.mul_lt_mul_of_pos_right (by omega) (Nat.two_pow_pos _)
          _ = (2 ^ 52 + 0) * 2 ^ (n / 2 ^ 52 - 1 + 1) := by ring

/-- The value of a number, in units of the smallest positive one. -/
def units (x : Binary64) : ℤ :=
  let value : ℕ := x.parts.1 * 2 ^ (x.parts.2 + 1074).toNat
  if x.negative then -value else value

theorem size_magnitude (x : Binary64) :
    x.parts.1 * 2 ^ (x.parts.2 + 1074).toNat = size x.magnitude := by
  unfold parts size
  simp only [Nat.pow_eq]
  split
  · simp
  · have hexponent : ((x.magnitude / 2 ^ 52 : ℕ) - 1075 + 1074 : ℤ).toNat =
        x.magnitude / 2 ^ 52 - 1 := by omega
    rw [hexponent]

/-- The value of the number that has a rank. -/
def valueOfRank (rank : ℤ) : ℤ := if rank < 0 then -(size rank.natAbs : ℤ) else size rank.natAbs

theorem valueOfRank_lt_valueOfRank {i j : ℤ} (hlt : i < j) : valueOfRank i < valueOfRank j := by
  have hi := strictMono_size.le_apply (x := i.natAbs)
  have hj := strictMono_size.le_apply (x := j.natAbs)
  unfold valueOfRank
  split <;> split
  · have hsize := strictMono_size (show j.natAbs < i.natAbs by omega)
    omega
  · omega
  · omega
  · have hsize := strictMono_size (show i.natAbs < j.natAbs by omega)
    omega

theorem units_eq (x : Binary64) : x.units = valueOfRank x.rank := by
  have hzero : size 0 = 0 := rfl
  unfold units rank valueOfRank
  simp only [size_magnitude]
  cases x.negative with
  | false => simp
  | true =>
      by_cases hmagnitude : x.magnitude = 0
      · simp [hmagnitude, hzero]
      · simp [hmagnitude]

/-- The numbers are in the order of their values. -/
theorem compares_units (x y : Binary64) : (x.compare y).Compares x.units y.units := by
  rw [units_eq, units_eq]
  have hmono : StrictMono valueOfRank := fun _ _ => valueOfRank_lt_valueOfRank
  exact hmono.compares.mpr (compares_int x.rank y.rank)

end Binary64

/-! ### Dates and times -/

namespace Date

def numbers (date : Date) : List ℤ := [date.year, date.month, date.day]

theorem compares_numbers (a b : Date) : (a.compare b).Compares a.numbers b.numbers :=
  compares_cons (compares_int _ _) (compares_cons (compares_nat _ _)
    (compares_singleton (compares_nat _ _)))

theorem numbers_injective : Function.Injective numbers := by
  rintro ⟨year, month, day, _⟩ ⟨year', month', day', _⟩ h
  simpa [numbers] using h

end Date

namespace Time

def numbers (time : Time) : List ℤ := [time.hour, time.minute, time.second, time.nano]

theorem compares_numbers (a b : Time) : (a.compare b).Compares a.numbers b.numbers :=
  compares_cons (compares_nat _ _) (compares_cons (compares_nat _ _)
    (compares_cons (compares_nat _ _) (compares_singleton (compares_nat _ _))))

theorem numbers_injective : Function.Injective numbers := by
  rintro ⟨hour, minute, second, nano, _, _, _, _⟩ ⟨hour', minute', second', nano', _, _, _, _⟩ h
  simpa [numbers] using h

end Time

namespace Instant

def numbers (instant : Instant) : List ℤ := instant.date.numbers ++ instant.time.numbers

theorem compares_numbers (a b : Instant) : (a.compare b).Compares a.numbers b.numbers := by
  unfold compare Date.compare
  rw [Ordering.then_assoc, Ordering.then_assoc]
  exact compares_cons (compares_int _ _) (compares_cons (compares_nat _ _)
    (compares_cons (compares_nat _ _) (Time.compares_numbers _ _)))

theorem numbers_injective : Function.Injective numbers := by
  rintro ⟨date, time⟩ ⟨date', time'⟩ h
  obtain ⟨hdate, htime⟩ := List.append_inj h rfl
  rw [Instant.mk.injEq]
  exact ⟨Date.numbers_injective hdate, Time.numbers_injective htime⟩

end Instant

/-! ### Texts -/

/-- The letters of a text, as their numbers. -/
def Text.numbers (text : String) : List ℤ := text.toList.map fun c => (c.toNat : ℤ)

theorem Text.numbers_lt_numbers {s t : String} (h : s < t) : numbers s < numbers t := by
  have hletters : List.Lex (· < ·) s.toList t.toList := h
  unfold numbers
  generalize s.toList = letters, t.toList = others at hletters ⊢
  induction hletters with
  | nil => exact List.Lex.nil
  | cons _ ih => exact List.Lex.cons ih
  | rel hletter => exact List.Lex.rel (Int.ofNat_lt.mpr hletter)

theorem Text.compares_numbers (s t : String) : (compare s t).Compares (numbers s) (numbers t) := by
  rw [show compare s t = compareOfLessAndEq s t from rfl]
  unfold compareOfLessAndEq
  split
  · exact numbers_lt_numbers ‹_›
  · split
    · exact congrArg numbers ‹_›
    · exact numbers_lt_numbers (lt_of_le_of_ne (not_lt.mp ‹_›) (Ne.symm ‹_›))

theorem Text.numbers_injective : Function.Injective numbers := by
  intro s t h
  exact Std.LawfulEqOrd.eq_of_compare ((compares_numbers s t).eq_eq.mpr h)

/-! ### Values -/

namespace Value

/-- What a value of a kind that can be sorted by stands for. -/
def numbers : Value → List ℤ
  | .null | .json _ | .list _ => []
  | .bool b => [if b then 1 else 0]
  | .int i => [i]
  | .float x => [x.units]
  | .str s => Text.numbers s
  | .date d => d.numbers
  | .time t => t.numbers
  | .instant t => t.numbers
  | .decimal d => [d.units]
  | .uuid u => [(u.value : ℤ)]
  | .duration d => [d.micros]

/-- What a value is sorted by: null is below all others. -/
def measure (value : Value) : WithBot (List ℤ) := if value.isNull then ⊥ else value.numbers

theorem compares_numbers {kind : Kind} (hkind : kind.isSortable = true) {a b : Value}
    (ha : a.isOf kind = true) (hb : b.isOf kind = true) :
    ((a.compare? b).getD .eq).Compares a.numbers b.numbers := by
  cases kind <;> cases a <;> cases ha <;> cases b <;> cases hb
  case string => exact Text.compares_numbers _ _
  case integer => exact compares_singleton (compares_int _ _)
  case float => exact compares_singleton (Binary64.compares_units _ _)
  case boolean => exact compares_singleton (compares_bool _ _)
  case date => exact Date.compares_numbers _ _
  case time => exact Time.compares_numbers _ _
  case datetime => exact Instant.compares_numbers _ _
  case decimal => exact compares_singleton (compares_int _ _)
  case uuid => exact compares_singleton (compares_nat _ _)
  case duration => exact compares_singleton (compares_int _ _)
  case json => cases hkind

/-- Two values of an orderable kind have an order, which is that of what they stand for. -/
theorem exists_compare? {kind : Kind} (hkind : kind.isOrderable = true) {a b : Value}
    (ha : a.isOf kind = true) (hb : b.isOf kind = true) :
    ∃ order, a.compare? b = some order ∧ order.Compares a.numbers b.numbers := by
  have hsortable : kind.isSortable = true := by
    cases kind with
    | json => cases hkind
    | _ => rfl
  obtain ⟨order, horder⟩ : ∃ order, a.compare? b = some order := by
    cases kind <;> cases a <;> cases ha <;> cases b <;> cases hb <;>
      first | exact ⟨_, rfl⟩ | cases hkind
  have hcompares := compares_numbers hsortable ha hb
  rw [horder, Option.getD_some] at hcompares
  exact ⟨order, horder, hcompares⟩

/-- Values of one kind are equal just when they stand for the same, whatever they are written as. -/
theorem same_iff_numbers {kind : Kind} (hkind : kind.isOrderable = true) {a b : Value}
    (ha : a.isOf kind = true) (hb : b.isOf kind = true) :
    a.same b = true ↔ a.numbers = b.numbers := by
  cases kind <;> cases a <;> cases ha <;> cases b <;> cases hb
  case string => simp [same, numbers, Text.numbers_injective.eq_iff]
  case integer => simp [same, numbers]
  case float x y =>
    rw [same, ← Binary64.compare_eq_iff, (Binary64.compares_units x y).eq_eq]
    simp [numbers]
  case date => simp [same, numbers, Date.numbers_injective.eq_iff]
  case time => simp [same, numbers, Time.numbers_injective.eq_iff]
  case datetime => simp [same, numbers, Instant.numbers_injective.eq_iff]
  case decimal => simp [same, numbers, Decimal.same]
  case duration d e =>
    cases d
    cases e
    simp [same, numbers]
  all_goals cases hkind

/-- Values of one kind are in the order of their measures. -/
theorem compares_measure {kind : Kind} (hkind : kind.isSortable = true) {a b : Value}
    (ha : a.fits kind false = true) (hb : b.fits kind false = true) :
    (a.sortCompare b).Compares a.measure b.measure := by
  unfold sortCompare measure
  cases hnull : a.isNull <;> cases hnull' : b.isNull
  · have h := compares_numbers hkind (isOf_of_fits ha hnull) (isOf_of_fits hb hnull')
    exact WithBot.coe_strictMono.compares.mpr h
  · exact WithBot.bot_lt_coe _
  · exact WithBot.bot_lt_coe _
  · rfl

end Value

end ModelSurface
