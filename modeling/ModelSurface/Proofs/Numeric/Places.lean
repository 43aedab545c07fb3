import ModelSurface.Numeric.Decimal
import ModelSurface.Proofs.Calendar.Numerals

/-!
# Decimal numbers that are read back

A decimal number is written with all its places, and read back with the same number of them: no
digit is rounded away, since no mantissa on the way outgrows the one that is written.
-/

namespace ModelSurface.Decimal

open Text

/-! ### Digits of a number -/

/-- Digits are read into the mantissa, as long as it has room for them and places are left. -/
theorem Scan.run_digits {negative point seen : Bool} {mantissa scale : ℕ} {digits : List Char}
    (hdigits : ∀ c ∈ digits, c.isDigit = true)
    (hroom : mantissa * 10 ^ digits.length + digitsValue digits < 2 ^ 96)
    (hwhole : point = false → scale = 0) (hplaces : point = true → scale + digits.length ≤ 28)
    (rest : List Char) :
    run ⟨negative, mantissa, scale, point, seen⟩ (digits ++ rest) =
      run ⟨negative, mantissa * 10 ^ digits.length + digitsValue digits,
        if point then scale + digits.length else 0, point, seen || !digits.isEmpty⟩ rest := by
  induction digits generalizing mantissa scale seen with
  | nil =>
      have hscale : (if point then scale + 0 else 0) = scale := by
        cases point with
        | true => rfl
        | false => exact (hwhole rfl).symm
      rw [List.length_nil, hscale, List.isEmpty_nil, Bool.not_true, Bool.or_false, Nat.pow_zero,
        Nat.mul_one]
      rfl
  | cons c digits ih =>
      obtain ⟨hc, hothers⟩ := List.forall_mem_cons.mp hdigits
      have hvalue : digitsValue (c :: digits) =
          (c.toNat - 48) * 10 ^ digits.length + digitsValue digits := by
        have hsplit := digitsValue_append [c] digits
        rwa [show digitsValue [c] = c.toNat - 48 by simp [digitsValue]] at hsplit
      have hsum : (mantissa * 10 + (c.toNat - 48)) * 10 ^ digits.length + digitsValue digits =
          mantissa * 10 ^ (c :: digits).length + digitsValue (c :: digits) := by
        rw [hvalue, List.length_cons]
        ring
      rw [← hsum] at hroom ⊢
      have hfits : mantissa * 10 + (c.toNat - 48) < Nat.pow 2 96 := by
        have hgrows := Nat.le_mul_of_pos_right (mantissa * 10 + (c.toNat - 48))
          (Nat.pow_pos (n := digits.length) (by decide : 0 < 10))
        exact lt_of_le_of_lt (hgrows.trans (Nat.le_add_right _ _)) hroom
      have hleft : ¬ ((point && scale == 28) = true) := by
        intro hfull
        obtain ⟨hpoint, hscale⟩ := Bool.and_eq_true_iff.mp hfull
        have := hplaces hpoint
        rw [beq_iff_eq.mp hscale, List.length_cons] at this
        omega
      rw [List.cons_append, run, if_neg hleft, if_pos hc]
      dsimp only
      rw [if_pos hfits, ih hothers hroom (fun hpoint => by rw [hpoint]; rfl) ?_]
      · congr 2
        · cases point with
          | false => rfl
          | true => simp only [if_true, List.length_cons]; omega
        · simp
      · intro hpoint
        have := hplaces hpoint
        rw [List.length_cons] at this
        rw [hpoint, if_pos rfl]
        omega

/-! ### The whole number -/

/-- The digits of a number as they stand around its point. -/
def split (d : Decimal) : List Char × List Char :=
  let digits := padded (d.scale + 1) d.mantissa
  (digits.take (digits.length - d.scale), digits.drop (digits.length - d.scale))

theorem chars_eq (d : Decimal) : d.chars = (if d.negative then ['-'] else []) ++ d.split.1 ++
    (if d.scale = 0 then [] else '.' :: d.split.2) := rfl

theorem length_split (d : Decimal) : d.split.1 ≠ [] ∧ d.split.2.length = d.scale := by
  have hlength := le_length_padded (d.scale + 1) d.mantissa
  unfold split
  constructor
  · rw [← List.length_pos_iff, List.length_take]
    omega
  · rw [List.length_drop]
    omega

theorem digits_split (d : Decimal) : Digits d.split.1 ∧ ∀ c ∈ d.split.2, c.isDigit = true := by
  have hdigits := (digits_padded (d.scale + 1) d.mantissa).digits
  exact ⟨⟨d.length_split.1, fun c hc => hdigits c (List.mem_of_mem_take hc)⟩,
    fun c hc => hdigits c (List.mem_of_mem_drop hc)⟩

theorem value_split (d : Decimal) :
    digitsValue d.split.1 * 10 ^ d.scale + digitsValue d.split.2 = d.mantissa := by
  have happend : d.split.1 ++ d.split.2 = padded (d.scale + 1) d.mantissa :=
    List.take_append_drop _ _
  have hvalue := digitsValue_padded (d.scale + 1) d.mantissa
  rwa [← happend, digitsValue_append, d.length_split.2] at hvalue

theorem build_self (d : Decimal) : build d.negative d.mantissa d.scale = .ok d := by
  have hsign : (d.negative && d.mantissa != 0) = d.negative := by
    by_cases hzero : d.mantissa = 0
    · rw [d.unsigned_zero hzero, Bool.false_and]
    · rw [bne_iff_ne.mpr hzero, Bool.and_true]
  unfold build of?
  rw [if_neg (Nat.not_lt.mpr d.scale_le), dif_pos ⟨d.mantissa_lt, d.scale_le⟩]
  simp only [hsign]

/-- Behind its sign, a number is read from the digits around its point. -/
theorem run_split (d : Decimal) : Scan.run ⟨d.negative, 0, 0, false, false⟩
    (d.split.1 ++ if d.scale = 0 then [] else '.' :: d.split.2) = .ok d := by
  obtain ⟨hwhole, hplaces⟩ := d.digits_split
  obtain ⟨hnonempty, hlength⟩ := d.length_split
  have hvalue := d.value_split
  have hmantissa : d.mantissa < 2 ^ 96 := d.mantissa_lt
  have hfirst : digitsValue d.split.1 ≤ d.mantissa := by
    have hgrows := Nat.le_mul_of_pos_right (digitsValue d.split.1)
      (Nat.pow_pos (n := d.scale) (by decide : 0 < 10))
    omega
  have hseen : (false || !d.split.1.isEmpty) = true := by
    cases hcase : d.split.1 with
    | nil => exact absurd hcase hnonempty
    | cons c rest => rfl
  rw [Scan.run_digits hwhole.digits (by omega) (fun _ => rfl) (fun h => by cases h), hseen,
    Nat.zero_mul, Nat.zero_add]
  by_cases hscale : d.scale = 0
  · rw [if_pos hscale]
    have hnone : d.split.2 = [] := List.length_eq_zero_iff.mp (hlength.trans hscale)
    rw [hscale, hnone, Nat.pow_zero, Nat.mul_one] at hvalue
    change build d.negative (digitsValue d.split.1) 0 = _
    rw [show digitsValue d.split.1 = d.mantissa from hvalue, ← hscale, d.build_self]
  · rw [if_neg hscale]
    have hpoint : Scan.run ⟨d.negative, digitsValue d.split.1, 0, false, true⟩
        ('.' :: d.split.2) = Scan.run ⟨d.negative, digitsValue d.split.1, 0, true, true⟩
          (d.split.2 ++ []) := by
      rw [List.append_nil]
      rfl
    change Scan.run ⟨d.negative, digitsValue d.split.1, 0, false, true⟩ ('.' :: d.split.2) = _
    rw [hpoint, Scan.run_digits hplaces (by rw [hlength, hvalue]; exact hmantissa)
      (fun h => by cases h) (fun _ => by rw [hlength, Nat.zero_add]; exact d.scale_le), hlength,
      hvalue]
    change build d.negative d.mantissa (0 + d.scale) = _
    rw [Nat.zero_add, d.build_self]

/-- A decimal number is read back from its text. -/
theorem ofText_text (d : Decimal) : ofText d.text = .ok d := by
  have hread : ofPlainChars d.text.toList = .ok d := by
    have hrun := d.run_split
    unfold text
    rw [String.toList_ofList, chars_eq]
    cases hnegative : d.negative with
    | true =>
        rw [hnegative] at hrun
        exact hrun
    | false =>
        rw [hnegative] at hrun
        obtain ⟨c, rest, hsplit, hc⟩ := d.digits_split.1.head
        have hminus : c ≠ '-' := by rintro rfl; cases hc
        have hplus : c ≠ '+' := by rintro rfl; cases hc
        rw [hsplit] at hrun ⊢
        unfold ofPlainChars
        simp only [if_neg Bool.false_ne_true, List.nil_append, List.cons_append]
        split
        · rename_i heq
          cases heq
        · rename_i heq
          exact absurd (List.cons.inj heq).1 hminus
        · rename_i heq
          exact absurd (List.cons.inj heq).1 hplus
        · exact hrun
  unfold ofText
  rw [hread]

end ModelSurface.Decimal
