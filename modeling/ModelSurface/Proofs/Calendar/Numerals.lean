import ModelSurface.Calendar.Numeral
import ModelSurface.Proofs.Numeric.Shortest

/-!
# Numbers of a fixed width

A number that is padded to a width stands there with all its digits, and is read back from them,
whatever follows that is no digit. Where a width says how many digits are read, digits may follow as
well.
-/

namespace ModelSurface

/-! ### Padding -/

namespace Text

/-- A text has digits only, and at least one. -/
structure Digits (text : List Char) : Prop where
  nonempty : text ≠ []
  digits : ∀ c ∈ text, c.isDigit = true

/-- A text does not go on with a digit. -/
def Stops (text : List Char) : Prop := ∀ c, text.head? = some c → c.isDigit = false

theorem stops_nil : Stops [] := fun _ h => by cases h

theorem stops_cons {c : Char} (h : c.isDigit = false) (rest : List Char) : Stops (c :: rest) := by
  intro found hfound
  rw [← Option.some.inj hfound]
  exact h

theorem digits_padded (width n : ℕ) : Digits (padded width n) where
  nonempty := List.append_ne_nil_of_right_ne_nil _ (List.length_pos_iff.mp Nat.length_toDigits_pos)
  digits := by
    intro c hc
    rcases List.mem_append.mp hc with hzero | hdigit
    · rw [List.eq_of_mem_replicate hzero]
      rfl
    · exact Nat.isDigit_of_mem_toDigits (by decide) le_rfl hdigit

theorem digitsValue_padded (width n : ℕ) : digitsValue (padded width n) = n := by
  unfold padded
  rw [digitsValue_append, digitsValue_zeros, digitsValue_toDigits, Nat.zero_mul, Nat.zero_add]

theorem length_padded {width n : ℕ} (hwidth : 0 < width) (h : n < 10 ^ width) :
    (padded width n).length = width := by
  have hdigits := (Nat.length_toDigits_le_iff (by decide : 1 < 10) hwidth).mpr h
  unfold padded
  rw [List.length_append, List.length_replicate]
  omega

theorem le_length_padded (width n : ℕ) : width ≤ (padded width n).length := by
  unfold padded
  rw [List.length_append, List.length_replicate]
  omega

theorem Digits.head {text : List Char} (h : Digits text) :
    ∃ c rest, text = c :: rest ∧ c.isDigit = true := by
  obtain ⟨c, rest, rfl⟩ := List.exists_cons_of_ne_nil h.nonempty
  exact ⟨c, rest, rfl, h.digits c List.mem_cons_self⟩

theorem isBlank_of_isDigit {c : Char} (h : c.isDigit = true) : isBlank c = false := by
  obtain ⟨hlow, hhigh⟩ := Char.isDigit_iff_toNat.mp h
  change 48 ≤ c.toNat at hlow
  change c.toNat ≤ 57 at hhigh
  simp only [isBlank, blankRanges, List.any_cons, List.any_nil]
  grind

/-- Digits are no white space. -/
theorem Digits.dropBlanks {text : List Char} (h : Digits text) (rest : List Char) :
    Text.dropBlanks (text ++ rest) = text ++ rest := by
  obtain ⟨c, others, rfl, hc⟩ := h.head
  exact List.dropWhile_cons_of_neg (by rw [isBlank_of_isDigit hc]; exact Bool.false_ne_true)

theorem takeWhile_of_stops {rest : List Char} (h : Stops rest) :
    rest.takeWhile Char.isDigit = [] := by
  cases rest with
  | nil => rfl
  | cons c rest => exact List.takeWhile_cons_of_neg (by rw [h c rfl]; exact Bool.false_ne_true)

/-- All digits of a text are taken, and no others. -/
theorem Digits.spanDigits {text rest : List Char} (h : Digits text) (hrest : Stops rest) :
    Text.spanDigits (text ++ rest) = (text, rest) := by
  have htake : (text ++ rest).takeWhile Char.isDigit = text := by
    rw [List.takeWhile_append_of_pos h.digits, takeWhile_of_stops hrest, List.append_nil]
  have hdrop : (text ++ rest).dropWhile Char.isDigit = rest := by
    have hall := List.takeWhile_append_dropWhile (p := Char.isDigit) (l := text ++ rest)
    rw [htake] at hall
    exact List.append_cancel_left hall
  unfold Text.spanDigits
  rw [htake, hdrop]

theorem Digits.spanDigitsUpTo {limit : ℕ} {text rest : List Char} (h : Digits text)
    (hlimit : text.length ≤ limit) (hrest : text.length = limit ∨ Stops rest) :
    Text.spanDigitsUpTo limit (text ++ rest) = (text, rest) := by
  have htake : ((text ++ rest).take limit).takeWhile Char.isDigit = text := by
    rw [List.take_append, List.take_of_length_le hlimit, List.takeWhile_append_of_pos h.digits]
    rcases hrest with hfull | hstops
    · rw [hfull, Nat.sub_self, List.take_zero, List.takeWhile_nil, List.append_nil]
    · rw [takeWhile_of_stops, List.append_nil]
      intro c hc
      refine hstops c ?_
      cases rest with
      | nil => rw [List.take_nil] at hc; exact hc
      | cons first rest =>
          cases hleft : limit - text.length with
          | zero => rw [hleft] at hc; cases hc
          | succ left => rw [hleft] at hc; exact hc
  unfold Text.spanDigitsUpTo
  dsimp only
  rw [htake, List.drop_left]

end Text

/-! ### Reading -/

namespace Calendar

open Text

variable {text rest : List Char}

theorem readNumber_digits {limit : ℕ} (h : Digits text) (hlimit : text.length ≤ limit)
    (hrest : text.length = limit ∨ Stops rest) :
    readNumber limit (text ++ rest) = .ok (digitsValue text, rest) := by
  have hspan := h.spanDigitsUpTo hlimit hrest
  obtain ⟨c, others, rfl, -⟩ := h.head
  unfold readNumber
  rw [hspan]
  rfl

/-- A number that is written with all the digits that are read of it. -/
theorem readField_padded {width low high n : ℕ} (hwidth : 0 < width) (hn : n < 10 ^ width)
    (hlow : low ≤ n) (hhigh : n ≤ high) (rest : List Char) :
    readField width low high (padded width n ++ rest) = .ok (n, rest) := by
  have hlength := length_padded hwidth hn
  unfold readField
  rw [(digits_padded width n).dropBlanks,
    readNumber_digits (digits_padded width n) hlength.le (.inl hlength), digitsValue_padded]
  exact if_pos ⟨hlow, hhigh⟩

theorem readTwo_digits (h : Digits text) (hlength : text.length = 2) (rest : List Char) :
    readTwo (text ++ rest) = .ok (digitsValue text, rest) := by
  obtain ⟨a, b, rfl⟩ := List.length_eq_two.mp hlength
  have ha := h.digits a List.mem_cons_self
  have hb := h.digits b (List.mem_cons_of_mem _ List.mem_cons_self)
  change (if a.isDigit && b.isDigit then _ else _) = _
  rw [ha, hb]
  rfl

theorem readTwo_padded {n : ℕ} (h : n < 100) (rest : List Char) :
    readTwo (padded 2 n ++ rest) = .ok (n, rest) := by
  rw [readTwo_digits (digits_padded 2 n) (length_padded (by decide) h), digitsValue_padded]

theorem readSeparator_self (c : Char) (rest : List Char) :
    readSeparator c (c :: rest) = .ok rest :=
  if_pos (beq_self_eq_true c)

/-- A fraction that is written with at most nine digits. -/
theorem readFraction_padded {places n : ℕ} (hplaces : 0 < places) (hnine : places ≤ 9)
    (h : n < 10 ^ places) (hrest : Stops rest) :
    readFraction (padded places n ++ rest) = .ok (n * 10 ^ (9 - places), rest) := by
  have hlength := length_padded hplaces h
  unfold readFraction
  rw [readNumber_digits (digits_padded places n) (by omega) (.inr hrest)]
  dsimp only [bind, Except.bind]
  rw [(digits_padded places n).spanDigits hrest]
  dsimp only
  rw [List.take_of_length_le (by omega), digitsValue_padded, hlength]
  rfl

end Calendar

end ModelSurface
