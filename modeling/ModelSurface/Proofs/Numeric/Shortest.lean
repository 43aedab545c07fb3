import ModelSurface.Numeric.Shortest
import ModelSurface.Proofs.Numeric.Nearest
import ModelSurface.Text.Basic

/-!
# The shortest decimals of numbers

What is written for a number is a decimal that rounds to it: one of the decimals with few digits
that have been compared with the bounds of the number, or the number itself. Its digits have no
zero in front, so they may be read as they are laid out.
-/

namespace ModelSurface

/-! ### Digits -/

namespace Text

theorem digitsValue_eq (digits : List Char) :
    digitsValue digits = Nat.ofDigitChars 10 digits 0 := by
  rw [Nat.ofDigitChars_eq_foldl]
  unfold digitsValue
  congr 1
  funext n c
  rw [Nat.mul_comm]
  rfl

theorem foldl_digits (n : ℕ) (digits : List Char) :
    digits.foldl (fun n c => n * 10 + (c.toNat - 48)) n =
      n * 10 ^ digits.length + digitsValue digits := by
  induction digits generalizing n with
  | nil => simp [digitsValue]
  | cons c digits ih =>
      have hcons : digitsValue (c :: digits) =
          (0 * 10 + (c.toNat - 48)) * 10 ^ digits.length + digitsValue digits := ih _
      rw [List.foldl_cons, ih, hcons, List.length_cons]
      ring

theorem digitsValue_append (digits more : List Char) :
    digitsValue (digits ++ more) = digitsValue digits * 10 ^ more.length + digitsValue more := by
  conv_lhs => unfold digitsValue
  rw [List.foldl_append]
  exact foldl_digits _ more

theorem digitsValue_toDigits (n : ℕ) : digitsValue (Nat.toDigits 10 n) = n := by
  rw [digitsValue_eq, Nat.ofDigitChars_ten_toDigits]

theorem digitsValue_zeros (n : ℕ) : digitsValue (List.replicate n '0') = 0 := by
  induction n with
  | zero => rfl
  | succ n ih =>
      rw [List.replicate_succ, ← List.singleton_append, digitsValue_append, ih,
        show digitsValue ['0'] = 0 from rfl, Nat.zero_mul]

/-- The digits of a number begin with zero only if there is no other digit. -/
theorem head_toDigits {n : ℕ} (h : n ≠ 0) :
    ∃ c rest, Nat.toDigits 10 n = c :: rest ∧ c ≠ '0' := by
  induction n using Nat.strong_induction_on with
  | _ n ih =>
      rw [Nat.toDigits_eq_if (by norm_num)]
      split
      · rename_i hless
        refine ⟨n.digitChar, [], rfl, ?_⟩
        have hdigits : ∀ n < 10, n ≠ 0 → n.digitChar ≠ '0' := by decide
        exact hdigits n hless h
      · obtain ⟨c, rest, heq, hc⟩ := ih (n / 10) (by omega) (by omega)
        exact ⟨c, rest ++ [(n % 10).digitChar], by rw [heq, List.cons_append], hc⟩

end Text

namespace DecimalDigits

open Text Binary64

/-- The number that the digits stand for. -/
def value (d : DecimalDigits) : ℚ := decimalValue (digitsValue d.digits) d.exponent

/-- Digits that may be laid out: none is in front of the others only to fill a place. -/
structure Plain (d : DecimalDigits) : Prop where
  digits : ∀ c ∈ d.digits, c.isDigit
  first : ∃ c rest, d.digits = c :: rest ∧ (c = '0' → rest = [] ∧ d.exponent = 0)

theorem plain_zero : Plain { digits := ['0'], exponent := 0 } :=
  ⟨by simp, '0', [], rfl, fun _ => ⟨rfl, rfl⟩⟩

/-- The digits of a number are those that are kept, and zeros. -/
theorem toDigits_eq_kept (n : ℕ) : let kept :=
      ((Nat.toDigits 10 n).reverse.dropWhile (· == '0')).reverse
    Nat.toDigits 10 n = kept ++ List.replicate ((Nat.toDigits 10 n).length - kept.length) '0' := by
  intro kept
  have hsplit := List.takeWhile_append_dropWhile (p := (· == '0'))
    (l := (Nat.toDigits 10 n).reverse)
  have hzeros : (Nat.toDigits 10 n).reverse.takeWhile (· == '0') =
      List.replicate ((Nat.toDigits 10 n).reverse.takeWhile (· == '0')).length '0' := by
    refine List.eq_replicate_of_mem fun c hc => ?_
    exact beq_iff_eq.mp (List.all_eq_true.mp List.all_takeWhile c hc)
  have hdigits : Nat.toDigits 10 n = kept ++
      List.replicate ((Nat.toDigits 10 n).reverse.takeWhile (· == '0')).length '0' := by
    have hreverse := congrArg List.reverse hsplit
    rw [List.reverse_append, List.reverse_reverse, hzeros, List.reverse_replicate] at hreverse
    exact hreverse.symm
  have hlength := congrArg List.length hdigits
  rw [List.length_append, List.length_replicate] at hlength
  rw [hlength, Nat.add_sub_cancel_left]
  exact hdigits

theorem value_ofNat (n : ℕ) (exponent : ℤ) :
    (ofNat n exponent).value = decimalValue n exponent := by
  have hdigits := toDigits_eq_kept n
  have hn := digitsValue_toDigits n
  unfold ofNat value
  dsimp only at hdigits ⊢
  set kept := ((Nat.toDigits 10 n).reverse.dropWhile (· == '0')).reverse with hkept
  set zeros := (Nat.toDigits 10 n).length - kept.length with hzeros
  rw [hdigits, digitsValue_append, digitsValue_zeros, List.length_replicate, add_zero] at hn
  split
  · rename_i hempty
    rw [List.isEmpty_iff.mp hempty] at hn
    have hzero : n = 0 := by
      rw [← hn]
      exact Nat.zero_mul _
    rw [hzero]
    simp [decimalValue, digitsValue]
  · dsimp only
    unfold decimalValue
    rw [← hn, zpow_add₀ (by norm_num), zpow_natCast]
    push_cast
    ring

theorem plain_ofNat (n : ℕ) (exponent : ℤ) : (ofNat n exponent).Plain := by
  have hdigits := toDigits_eq_kept n
  unfold ofNat
  dsimp only at hdigits ⊢
  set kept := ((Nat.toDigits 10 n).reverse.dropWhile (· == '0')).reverse with hkept
  split
  · exact plain_zero
  · rename_i hnonempty
    refine ⟨fun c hc => ?_, ?_⟩
    · refine Nat.isDigit_of_mem_toDigits (b := 10) (n := n) (by norm_num) le_rfl ?_
      rw [hdigits]
      exact List.mem_append_left _ hc
    · cases hcases : kept with
      | nil => exact absurd (List.isEmpty_iff.mpr hcases) hnonempty
      | cons c rest =>
          refine ⟨c, rest, rfl, fun hzero => ?_⟩
          have hn : n ≠ 0 := by
            rintro rfl
            rw [show Nat.toDigits 10 0 = ['0'] from rfl] at hkept
            rw [hkept] at hcases
            cases hcases
          obtain ⟨first, others, heq, hfirst⟩ := head_toDigits hn
          rw [hdigits, hcases, List.cons_append] at heq
          exact absurd hzero ((List.cons.inj heq).1 ▸ hfirst)

end DecimalDigits

namespace Binary64

variable {m : ℕ} {e : ℤ}

/-! ### Comparing with the bounds of a number -/

/-- The numbers compared are multiples of the two values, by one positive factor. -/
theorem compareScaled_eq (a : ℕ) (i : ℤ) (b : ℕ) (j : ℤ) :
    compareScaled a i b j = Ord.compare (decimalValue a i) (b * 2 ^ j : ℚ) := by
  have hleft : ((a * Nat.pow 10 i.toNat * Nat.pow 2 (-j).toNat : ℕ) : ℚ) =
      decimalValue a i * (10 ^ (-i).toNat * 2 ^ (-j).toNat) := by
    unfold decimalValue
    rw [zpow_eq_div 10 i]
    push_cast [Nat.pow_eq]
    field_simp
  have hright : ((b * Nat.pow 2 j.toNat * Nat.pow 10 (-i).toNat : ℕ) : ℚ) =
      b * 2 ^ j * (10 ^ (-i).toNat * 2 ^ (-j).toNat) := by
    rw [zpow_eq_div 2 j]
    push_cast [Nat.pow_eq]
    field_simp
  have hpos : (0 : ℚ) < 10 ^ (-i).toNat * 2 ^ (-j).toNat := by positivity
  unfold compareScaled
  rcases lt_trichotomy (decimalValue a i) (b * 2 ^ j) with hlt | heq | hgt
  · rw [compare_lt_iff_lt.mpr hlt, compare_lt_iff_lt, ← Nat.cast_lt (α := ℚ), hleft, hright]
    exact mul_lt_mul_of_pos_right hlt hpos
  · rw [compare_eq_iff_eq.mpr heq, compare_eq_iff_eq, ← Nat.cast_inj (R := ℚ), hleft, hright, heq]
  · rw [compare_gt_iff_gt.mpr hgt, compare_gt_iff_gt, ← Nat.cast_lt (α := ℚ), hleft, hright]
    exact mul_lt_mul_of_pos_right hgt hpos

theorem quarter_bounds (hm : 0 < m) :
    ((if m == Nat.pow 2 52 && decide (-1074 < e) then 4 * m - 1 else 4 * m - 2 : ℕ) : ℚ) *
      2 ^ (e - 2) = (m - gapBelow m e) * 2 ^ e ∧
    ((4 * m + 2 : ℕ) : ℚ) * 2 ^ (e - 2) = (m + 1 / 2) * 2 ^ e := by
  have hpower : (2 : ℚ) ^ e = 4 * 2 ^ (e - 2) := by
    rw [show (4 : ℚ) = 2 ^ (2 : ℤ) by norm_num, ← zpow_add₀ two_ne_zero]
    congr 1
    omega
  have hnarrow : (m == Nat.pow 2 52 && decide (-1074 < e)) = true ↔ m = 2 ^ 52 ∧ -1074 < e := by
    rw [Bool.and_eq_true, beq_iff_eq, decide_eq_true_eq, Nat.pow_eq]
  rw [hpower]
  constructor
  · unfold gapBelow
    simp only [hnarrow]
    split
    · rw [Nat.cast_sub (by omega)]
      push_cast
      ring
    · rw [Nat.cast_sub (by omega)]
      push_cast
      ring
  · push_cast
    ring

theorem rounds_of_roundsTo (hm : 0 < m) {n : ℕ} {i : ℤ} (h : roundsTo m e n i = true) :
    Rounds m e (decimalValue n i) := by
  obtain ⟨hlow, hhigh⟩ := quarter_bounds (m := m) (e := e) hm
  unfold roundsTo at h
  simp only [compareScaled_eq, hlow, hhigh] at h
  simp only [Bool.and_eq_true, Bool.or_eq_true, beq_iff_eq, compare_gt_iff_gt, compare_lt_iff_lt,
    compare_eq_iff_eq] at h
  exact ⟨h.1.imp_right fun heven => ⟨heven.1, heven.2.symm⟩, h.2⟩

theorem roundsTo_of_onGrid? {i : ℤ} {n : ℕ} (h : onGrid? m e i = some n) :
    roundsTo m e n i = true := by
  have hhalf : ∀ num den, roundHalfEven num den = num / den ∨
      roundHalfEven num den = num / den + 1 := by
    intro num den
    unfold roundHalfEven
    dsimp only
    split
    · exact .inl rfl
    · exact .inr rfl
    · split
      · exact .inl rfl
      · exact .inr rfl
  unfold onGrid? at h
  dsimp only at h
  split at h
  · rename_i hlow hhigh
    obtain rfl := Option.some.inj h
    rcases hhalf _ _ with heq | heq
    · rw [heq]
      exact hlow
    · rw [heq]
      exact hhigh
  · rename_i hlow _
    exact Option.some.inj h ▸ hlow
  · rename_i _ hhigh
    exact Option.some.inj h ▸ hhigh
  · cases h

/-! ### What is written -/

theorem exact_value (m : ℕ) (e : ℤ) :
    decimalValue (m * Nat.pow 2 e.toNat * Nat.pow 5 (-e).toNat) (min e 0) = m * 2 ^ e := by
  unfold decimalValue
  push_cast [Nat.pow_eq]
  obtain ⟨n, rfl | rfl⟩ := e.eq_nat_or_neg
  · simp
  · have hten : (10 : ℚ) ^ n = 2 ^ n * 5 ^ n := by
      rw [← mul_pow]
      norm_num
    rw [min_eq_left (by omega), neg_neg, Int.toNat_natCast, Int.toNat_of_nonpos (by omega),
      zpow_neg, zpow_neg, zpow_natCast, zpow_natCast, hten]
    field_simp

theorem plain_shortest (x : Binary64) : x.shortest.Plain := by
  unfold shortest
  split
  · exact DecimalDigits.plain_zero
  · dsimp only
    cases hfound : (List.range 17).findSome? fun (k : ℕ) =>
        (onGrid? x.parts.1 x.parts.2 (decimalPoint x.parts.1 x.parts.2 - (k + 1))).map fun n =>
          DecimalDigits.ofNat n (decimalPoint x.parts.1 x.parts.2 - (k + 1)) with
    | none => exact DecimalDigits.plain_ofNat _ _
    | some d =>
        obtain ⟨k, -, hk⟩ := List.exists_of_findSome?_eq_some hfound
        obtain ⟨n, -, rfl⟩ := Option.map_eq_some_iff.mp hk
        exact DecimalDigits.plain_ofNat _ _

/-- What is written for a number rounds to it. -/
theorem rounds_shortest {x : Binary64} (h : x.magnitude ≠ 0) :
    Rounds x.parts.1 x.parts.2 x.shortest.value := by
  unfold shortest
  rw [if_neg h]
  dsimp only
  cases hfound : (List.range 17).findSome? fun (k : ℕ) =>
      (onGrid? x.parts.1 x.parts.2 (decimalPoint x.parts.1 x.parts.2 - (k + 1))).map fun n =>
        DecimalDigits.ofNat n (decimalPoint x.parts.1 x.parts.2 - (k + 1)) with
  | none =>
      rw [Option.getD_none, DecimalDigits.value_ofNat, exact_value]
      exact rounds_self _ _
  | some d =>
      obtain ⟨k, -, hk⟩ := List.exists_of_findSome?_eq_some hfound
      obtain ⟨n, hn, rfl⟩ := Option.map_eq_some_iff.mp hk
      rw [Option.getD_some, DecimalDigits.value_ofNat]
      exact rounds_of_roundsTo (isPart_parts h).1.pos (roundsTo_of_onGrid? hn)

end Binary64

end ModelSurface
