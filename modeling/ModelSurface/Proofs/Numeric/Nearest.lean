import Mathlib.Algebra.Order.Field.Power
import Mathlib.Data.Rat.Cast.Order
import Mathlib.Tactic.FieldSimp
import Mathlib.Tactic.Linarith
import Mathlib.Tactic.NormNum
import Mathlib.Tactic.Positivity
import Mathlib.Tactic.Ring
import ModelSurface.Numeric.Binary64

/-!
# The number nearest to a quotient

A binary64 number stands for all quotients that lie closer to it than to its neighbours, and for
those halfway between if its significand is even. Rounding gives back the number for each of them.
The gap below a power of two is half as wide as the one above, and only there a quotient may have
a binary exponent other than the number it is rounded to.
-/

namespace ModelSurface

/-! ### Rounding -/

theorem roundHalfEven_eq {num den n : ℕ} (hden : 0 < den) (hlow : 2 * n * den ≤ 2 * num + den)
    (hhigh : 2 * num ≤ 2 * n * den + den)
    (hodd : n % 2 = 1 → 2 * n * den ≠ 2 * num + den ∧ 2 * num ≠ 2 * n * den + den) :
    roundHalfEven num den = n := by
  have hdivision := Nat.div_add_mod num den
  have hless := Nat.mod_lt num hden
  unfold roundHalfEven
  dsimp only
  generalize num / den = quotient at hdivision ⊢
  generalize num % den = rest at hdivision hless ⊢
  -- the quotient is the number itself or the one below
  have hbelow : n ≤ quotient + 1 := by nlinarith
  have habove : quotient ≤ n := by nlinarith
  rcases Nat.lt_or_ge quotient n with hlt | hge
  · obtain rfl : n = quotient + 1 := by omega
    have hrest : den ≤ 2 * rest := by nlinarith
    rcases Nat.lt_or_eq_of_le hrest with hmore | hhalf
    · rw [Nat.compare_eq_gt.mpr hmore]
    · rw [Nat.compare_eq_eq.mpr hhalf.symm]
      refine if_neg fun heven => (hodd (by omega)).1 ?_
      rw [← hdivision]
      nlinarith
  · obtain rfl : n = quotient := by omega
    have hrest : 2 * rest ≤ den := by nlinarith
    rcases Nat.lt_or_eq_of_le hrest with hfewer | hhalf
    · rw [Nat.compare_eq_lt.mpr hfewer]
    · rw [Nat.compare_eq_eq.mpr hhalf]
      refine if_pos ?_
      by_contra hparity
      refine (hodd (by omega)).2 ?_
      rw [← hdivision]
      nlinarith

/-- A power with an integral exponent as a quotient of powers with natural ones. -/
theorem zpow_eq_div (a : ℚ) (e : ℤ) : a ^ e = a ^ e.toNat / a ^ (-e).toNat := by
  obtain ⟨n, rfl | rfl⟩ := e.eq_nat_or_neg
  · simp
  · simp

namespace Binary64

theorem shifted_value (num : ℕ) {den : ℕ} (e : ℤ) :
    ((shifted num den e).1 : ℚ) / (shifted num den e).2 = num / den / 2 ^ e := by
  unfold shifted
  rw [zpow_eq_div]
  push_cast [Nat.pow_eq]
  field_simp

theorem shifted_pos {num den : ℕ} (h : 0 < den) (e : ℤ) : 0 < (shifted num den e).2 :=
  Nat.mul_pos h (Nat.pow_pos Nat.two_pos)

theorem log2_bounds {n : ℕ} (h : 0 < n) :
    (2 : ℚ) ^ (n.log2 : ℤ) ≤ n ∧ (n : ℚ) < 2 ^ (n.log2 + 1 : ℤ) := by
  have hlow := Nat.log2_self_le h.ne'
  have hhigh := Nat.lt_log2_self (n := n)
  constructor
  · exact_mod_cast hlow
  · exact_mod_cast hhigh

theorem binaryExponent_bounds {num den : ℕ} (hnum : 0 < num) (hden : 0 < den) :
    (2 : ℚ) ^ binaryExponent num den ≤ num / den ∧
      (num / den : ℚ) < 2 ^ (binaryExponent num den + 1) := by
  obtain ⟨hnum_low, hnum_high⟩ := log2_bounds hnum
  obtain ⟨hden_low, hden_high⟩ := log2_bounds hden
  have hden_pos : (0 : ℚ) < den := by exact_mod_cast hden
  set guess : ℤ := (num.log2 : ℤ) - den.log2 with hguess
  have hbelow : (2 : ℚ) ^ (guess - 1) ≤ num / den := by
    rw [le_div_iff₀ hden_pos]
    calc (2 : ℚ) ^ (guess - 1) * den ≤ 2 ^ (guess - 1) * 2 ^ (den.log2 + 1 : ℤ) := by gcongr
      _ = 2 ^ (num.log2 : ℤ) := by rw [← zpow_add₀ two_ne_zero]; congr 1; omega
      _ ≤ num := hnum_low
  have habove : (num / den : ℚ) < 2 ^ (guess + 1) := by
    rw [div_lt_iff₀ hden_pos]
    calc (num : ℚ) < 2 ^ (num.log2 + 1 : ℤ) := hnum_high
      _ = 2 ^ (guess + 1) * 2 ^ (den.log2 : ℤ) := by
        rw [← zpow_add₀ two_ne_zero]; congr 1; omega
      _ ≤ 2 ^ (guess + 1) * den := by gcongr
  have hshifted : (shifted num den guess).2 ≤ (shifted num den guess).1 ↔
      (2 : ℚ) ^ guess ≤ num / den := by
    have hpos : (0 : ℚ) < (shifted num den guess).2 := by exact_mod_cast shifted_pos hden guess
    rw [← Nat.cast_le (α := ℚ), ← one_le_div₀ hpos, shifted_value, one_le_div₀ (by positivity)]
  unfold binaryExponent
  dsimp only
  split
  · rename_i hle
    exact ⟨hshifted.mp hle, habove⟩
  · rename_i hlt
    refine ⟨hbelow, ?_⟩
    rw [sub_add_cancel]
    exact not_le.mp (mt hshifted.mpr hlt)

/-! ### What a number stands for -/

/-- A significand and a power of two that make a number. -/
structure IsPart (m : ℕ) (e : ℤ) : Prop where
  pos : 0 < m
  lt : m < 2 ^ 53
  least : -1074 ≤ e
  normal : 2 ^ 52 ≤ m ∨ e = -1074

/-- How far below a number its lowest quotient lies, in units of its last place. -/
def gapBelow (m : ℕ) (e : ℤ) : ℚ := if m = 2 ^ 52 ∧ -1074 < e then 1 / 4 else 1 / 2

/-- The quotient is rounded to `m * 2 ^ e`. -/
def Rounds (m : ℕ) (e : ℤ) (q : ℚ) : Prop :=
  ((m - gapBelow m e) * 2 ^ e < q ∨ m % 2 = 0 ∧ (m - gapBelow m e) * 2 ^ e = q) ∧
    (q < (m + 1 / 2) * 2 ^ e ∨ m % 2 = 0 ∧ q = (m + 1 / 2) * 2 ^ e)

variable {m : ℕ} {e : ℤ} {q : ℚ}

theorem gapBelow_pos : 0 < gapBelow m e := by
  unfold gapBelow
  split <;> norm_num

theorem gapBelow_le : gapBelow m e ≤ 1 / 2 := by
  unfold gapBelow
  split <;> norm_num

theorem rounds_self (m : ℕ) (e : ℤ) : Rounds m e (m * 2 ^ e) := by
  have hpos : (0 : ℚ) < 2 ^ e := by positivity
  have hgap := gapBelow_pos (m := m) (e := e)
  refine ⟨.inl ?_, .inl ?_⟩
  · nlinarith
  · nlinarith

theorem Rounds.bounds (h : Rounds m e q) :
    (m - gapBelow m e) * 2 ^ e ≤ q ∧ q ≤ (m + 1 / 2) * 2 ^ e :=
  ⟨h.1.elim le_of_lt fun heq => heq.2.le, h.2.elim le_of_lt fun heq => heq.2.le⟩

theorem IsPart.one_le (h : IsPart m e) : (1 : ℚ) ≤ m := by exact_mod_cast h.pos

theorem IsPart.le (h : IsPart m e) : (m : ℚ) + 1 ≤ 2 ^ 53 := by exact_mod_cast h.lt

theorem Rounds.half_le (h : Rounds m e q) (hpart : IsPart m e) : 1 / 2 * 2 ^ e ≤ q := by
  have hpos : (0 : ℚ) < 2 ^ e := by positivity
  have hm := hpart.one_le
  have hgap := gapBelow_le (m := m) (e := e)
  exact le_trans (by gcongr; linarith) h.bounds.1

theorem Rounds.lt (h : Rounds m e q) (hpart : IsPart m e) : q < 2 ^ (53 + e) := by
  have hpos : (0 : ℚ) < 2 ^ e := by positivity
  have hm := hpart.le
  refine lt_of_le_of_lt h.bounds.2 ?_
  rw [zpow_add₀ two_ne_zero]
  exact mul_lt_mul_of_pos_right (by norm_num at hm ⊢; linarith) hpos

theorem Rounds.pos (h : Rounds m e q) (hpart : IsPart m e) : 0 < q :=
  lt_of_lt_of_le (by positivity) (h.half_le hpart)

/-- A quotient has the binary exponent of the number it rounds to, unless it lies just below a
power of two. -/
theorem Rounds.exponent (h : Rounds m e q) (hpart : IsPart m e) {k : ℤ} (hlow : (2 : ℚ) ^ k ≤ q)
    (hhigh : q < 2 ^ (k + 1)) :
    max (k - 52) (-1074) = e ∨
      max (k - 52) (-1074) = e - 1 ∧ m = 2 ^ 52 ∧ -1074 < e ∧ q < 2 ^ 52 * 2 ^ e := by
  have hleast := hpart.least
  have hpos : (0 : ℚ) < 2 ^ e := by positivity
  have habove : k < 53 + e :=
    (zpow_lt_zpow_iff_right₀ one_lt_two).mp (hlow.trans_lt (h.lt hpart))
  have hbelow : ∀ n : ℕ, (2 : ℚ) ^ n ≤ m - gapBelow m e → (n : ℤ) + e < k + 1 := by
    intro n hn
    refine (zpow_lt_zpow_iff_right₀ (one_lt_two (α := ℚ))).mp (lt_of_le_of_lt ?_ hhigh)
    rw [zpow_add₀ two_ne_zero, zpow_natCast]
    exact le_trans (by gcongr) h.bounds.1
  rcases hpart.normal with hnormal | hsubnormal
  · rcases hnormal.lt_or_eq with hmore | rfl
    · have hcast : (2 : ℚ) ^ 52 + 1 ≤ m := by exact_mod_cast hmore
      have hgap := gapBelow_le (m := m) (e := e)
      have hk := hbelow 52 (by linarith)
      exact .inl (by omega)
    · by_cases hleast_eq : e = -1074
      · exact .inl (by omega)
      · have hgap : gapBelow (2 ^ 52) e = 1 / 4 := if_pos ⟨rfl, by omega⟩
        have hk := hbelow 51 (by rw [hgap]; norm_num)
        rcases eq_or_ne (max (k - 52) (-1074)) e with heq | hne
        · exact .inl heq
        · refine .inr ⟨by omega, rfl, by omega, ?_⟩
          have hsum : (2 : ℚ) ^ 52 * 2 ^ e = 2 ^ (52 + e) := by
            rw [zpow_add₀ two_ne_zero]
            rfl
          rw [hsum]
          exact hhigh.trans_le (zpow_le_zpow_right₀ one_le_two (by omega))
  · exact .inl (by omega)

/-- Bounds in units of the last place, as bounds on the quotient that is rounded. -/
theorem roundHalfEven_of_bounds {n d k : ℕ} (hd : 0 < d) (hlow : (k : ℚ) - 1 / 2 ≤ n / d)
    (hhigh : (n / d : ℚ) ≤ k + 1 / 2)
    (hodd : k % 2 = 1 → (k : ℚ) - 1 / 2 < n / d ∧ (n / d : ℚ) < k + 1 / 2) :
    roundHalfEven n d = k := by
  have hpos : (0 : ℚ) < d := by exact_mod_cast hd
  rw [le_div_iff₀ hpos] at hlow
  rw [div_le_iff₀ hpos] at hhigh
  refine roundHalfEven_eq hd ?_ ?_ fun hparity => ?_
  · exact_mod_cast (show (2 : ℚ) * k * d ≤ 2 * n + d by linarith)
  · exact_mod_cast (show (2 : ℚ) * n ≤ 2 * k * d + d by linarith)
  · obtain ⟨hmore, hfewer⟩ := hodd hparity
    rw [lt_div_iff₀ hpos] at hmore
    rw [div_lt_iff₀ hpos] at hfewer
    constructor
    · exact ne_of_lt (by exact_mod_cast (show (2 : ℚ) * k * d < 2 * n + d by linarith))
    · exact ne_of_lt (by exact_mod_cast (show (2 : ℚ) * n < 2 * k * d + d by linarith))

theorem nearestMagnitude_eq {num den : ℕ} (hden : 0 < den) (hpart : IsPart m e)
    (h : Rounds m e (num / den)) :
    nearestMagnitude num den = (e + 1074).toNat * 2 ^ 52 + m := by
  have hnum : 0 < num := by
    have hq := h.pos hpart
    rcases Nat.eq_zero_or_pos num with rfl | hnum
    · simp at hq
    · exact hnum
  have hpos : (0 : ℚ) < 2 ^ e := by positivity
  obtain ⟨hlow, hhigh⟩ := binaryExponent_bounds hnum hden
  unfold nearestMagnitude
  rw [if_neg hnum.ne']
  dsimp only
  rcases h.exponent hpart hlow hhigh with heq | ⟨heq, rfl, hleast, hless⟩
  · rw [heq]
    congr 1
    refine roundHalfEven_of_bounds (shifted_pos hden e) ?_ ?_ fun hodd => ?_
    · rw [shifted_value, le_div_iff₀ hpos]
      have hgap := gapBelow_le (m := m) (e := e)
      exact le_trans (by gcongr) h.bounds.1
    · rw [shifted_value, div_le_iff₀ hpos]
      exact h.bounds.2
    · rw [shifted_value, lt_div_iff₀ hpos, div_lt_iff₀ hpos]
      have hgap := gapBelow_le (m := m) (e := e)
      have hstrict_low := h.1.resolve_right fun heven => by omega
      have hstrict_high := h.2.resolve_right fun heven => by omega
      exact ⟨lt_of_le_of_lt (by gcongr) hstrict_low, hstrict_high⟩
  · -- just below a power of two the quotient rounds up to that power
    rw [heq]
    have hgap : gapBelow (2 ^ 52) e = 1 / 4 := if_pos ⟨rfl, hleast⟩
    have hbelow := h.bounds.1
    rw [hgap] at hbelow
    have hhalf : (2 : ℚ) ^ e = 2 * 2 ^ (e - 1) := by
      rw [← zpow_one_add₀ two_ne_zero]
      congr 1
      omega
    have hround : roundHalfEven (shifted num den (e - 1)).1 (shifted num den (e - 1)).2 =
        2 ^ 53 := by
      have hpos' : (0 : ℚ) < 2 ^ (e - 1) := by positivity
      refine roundHalfEven_of_bounds (shifted_pos hden _) ?_ ?_ (by norm_num)
      · rw [shifted_value, le_div_iff₀ hpos']
        rw [hhalf] at hbelow
        push_cast at hbelow ⊢
        linarith
      · rw [shifted_value, div_le_iff₀ hpos']
        rw [hhalf] at hless
        push_cast
        linarith
    rw [hround]
    have hexponent : (e + 1074).toNat = (e - 1 + 1074).toNat + 1 := by omega
    rw [hexponent, Nat.pow_eq]
    ring

/-! ### Numbers and their decimals -/

theorem isPart_parts {x : Binary64} (h : x.magnitude ≠ 0) : IsPart x.parts.1 x.parts.2 ∧
    (x.parts.2 + 1074).toNat * 2 ^ 52 + x.parts.1 = x.magnitude ∧ x.parts.2 ≤ 971 := by
  have hfinite := x.finite
  have hdivision := Nat.div_add_mod x.magnitude (2 ^ 52)
  have hless := Nat.mod_lt x.magnitude (show 0 < 2 ^ 52 by norm_num)
  unfold parts
  rw [Nat.pow_eq]
  split
  · rename_i hsubnormal
    exact ⟨⟨by omega, by omega, by omega, by omega⟩, by omega, by omega⟩
  · rename_i hnormal
    have hexponent : 1 ≤ x.magnitude / 2 ^ 52 := by omega
    refine ⟨⟨?_, ?_, ?_, ?_⟩, ?_, ?_⟩ <;> dsimp only <;> omega

/-- The number that a quotient rounds to. -/
theorem nearest?_eq {x : Binary64} (h : x.magnitude ≠ 0) {num den : ℕ} (hden : 0 < den)
    (hrounds : Rounds x.parts.1 x.parts.2 (num / den)) :
    nearest? x.negative num den = some x := by
  obtain ⟨hpart, hmagnitude, -⟩ := isPart_parts h
  have heq : nearestMagnitude num den = x.magnitude := by
    rw [nearestMagnitude_eq hden hpart hrounds, hmagnitude]
  unfold nearest?
  rw [dif_pos (heq ▸ x.finite)]
  simp only [heq]

/-- `digits * 10 ^ exponent`. -/
def decimalValue (digits : ℕ) (exponent : ℤ) : ℚ := digits * 10 ^ exponent

theorem decimalValue_eq_div (digits : ℕ) (exponent : ℤ) : decimalValue digits exponent =
    (digits * Nat.pow 10 exponent.toNat : ℕ) / (Nat.pow 10 (-exponent).toNat : ℕ) := by
  unfold decimalValue
  rw [zpow_eq_div]
  push_cast [Nat.pow_eq]
  field_simp

/-- The length of the digits says between which powers of ten a decimal lies. -/
theorem decimalValue_bounds {digits : ℕ} (h : digits ≠ 0) (exponent : ℤ) :
    (10 : ℚ) ^ (exponent + (Nat.toDigits 10 digits).length - 1) ≤ decimalValue digits exponent ∧
      decimalValue digits exponent < 10 ^ (exponent + (Nat.toDigits 10 digits).length) := by
  have hpos : (0 : ℚ) < 10 ^ exponent := by positivity
  have hlength : 0 < (Nat.toDigits 10 digits).length := Nat.length_toDigits_pos
  have hhigh : digits < 10 ^ (Nat.toDigits 10 digits).length :=
    (Nat.length_toDigits_le_iff (by norm_num) hlength).mp le_rfl
  have hlow : 10 ^ ((Nat.toDigits 10 digits).length - 1) ≤ digits := by
    rcases Nat.eq_zero_or_pos ((Nat.toDigits 10 digits).length - 1) with hzero | hmore
    · rw [hzero, pow_zero]
      omega
    · by_contra hless
      have hfewer := (Nat.length_toDigits_le_iff (by norm_num) hmore).mpr (not_le.mp hless)
      omega
  unfold decimalValue
  constructor
  · have hexponent : exponent + (Nat.toDigits 10 digits).length - 1 =
        ((Nat.toDigits 10 digits).length - 1 : ℕ) + exponent := by omega
    rw [hexponent, zpow_add₀ (by norm_num), zpow_natCast]
    gcongr
    exact_mod_cast hlow
  · rw [add_comm exponent, zpow_add₀ (by norm_num), zpow_natCast]
    gcongr
    exact_mod_cast hhigh

/-- All finite numbers lie well within the powers of ten that are not computed. -/
theorem two_zpow_lt_ten_zpow : (2 : ℚ) ^ (1075 : ℤ) < 10 ^ (400 : ℤ) :=
  calc (2 : ℚ) ^ (1075 : ℤ) ≤ 2 ^ ((3 * 400 : ℕ) : ℤ) := by
        exact zpow_le_zpow_right₀ one_le_two (by norm_num)
    _ = (2 ^ 3) ^ 400 := by rw [zpow_natCast, pow_mul]
    _ < 10 ^ 400 := pow_lt_pow_left₀ (by norm_num) (by norm_num) (by norm_num)
    _ = 10 ^ (400 : ℤ) := (zpow_natCast _ 400).symm

/-- Every decimal that rounds to a number is read as that number. -/
theorem ofDecimal?_eq {x : Binary64} (h : x.magnitude ≠ 0) {digits : ℕ} {exponent : ℤ}
    (hrounds : Rounds x.parts.1 x.parts.2 (decimalValue digits exponent)) :
    ofDecimal? x.negative digits exponent = some x := by
  obtain ⟨hpart, -, hlargest⟩ := isPart_parts h
  have hpos := hrounds.pos hpart
  have hdigits : digits ≠ 0 := by
    rintro rfl
    simp [decimalValue] at hpos
  obtain ⟨hlow, hhigh⟩ := decimalValue_bounds hdigits exponent
  have hhalf := hrounds.half_le hpart
  have hless := hrounds.lt hpart
  unfold ofDecimal?
  rw [if_neg hdigits]
  dsimp only
  rw [if_neg, if_neg]
  · rw [decimalValue_eq_div] at hrounds
    exact nearest?_eq h (Nat.pow_pos (by norm_num)) hrounds
  · -- far below the least number nothing rounds to it
    intro htiny
    have hbound : decimalValue digits exponent < 10 ^ (-400 : ℤ) :=
      hhigh.trans (zpow_lt_zpow_right₀ (by norm_num) htiny)
    have hleast : (2 : ℚ) ^ (-1074 : ℤ) ≤ 2 ^ x.parts.2 :=
      zpow_le_zpow_right₀ one_le_two hpart.least
    have hpowers : (10 : ℚ) ^ (-400 : ℤ) < 2 ^ (-1075 : ℤ) := by
      rw [zpow_neg, zpow_neg]
      exact inv_strictAnti₀ (zpow_pos two_pos _) two_zpow_lt_ten_zpow
    have hhalved : (2 : ℚ) ^ (-1075 : ℤ) = 1 / 2 * 2 ^ (-1074 : ℤ) := by
      rw [show (-1075 : ℤ) = -1 + -1074 by norm_num, zpow_add₀ two_ne_zero]
      norm_num
    rw [hhalved] at hpowers
    exact absurd hhalf (not_le.mpr (hbound.trans (hpowers.trans_le (by gcongr))))
  · intro hhuge
    have hbound : (10 : ℚ) ^ (400 : ℤ) ≤ decimalValue digits exponent :=
      le_trans (zpow_le_zpow_right₀ (by norm_num) (by omega)) hlow
    have hmost : (2 : ℚ) ^ (53 + x.parts.2) ≤ 2 ^ (1075 : ℤ) :=
      zpow_le_zpow_right₀ one_le_two (by omega)
    exact absurd hless (not_lt.mpr (hmost.trans (two_zpow_lt_ten_zpow.le.trans hbound)))

end Binary64

end ModelSurface
