import Mathlib.Data.String.Basic
import ModelSurface.Calendar.Instant
import ModelSurface.Proofs.Calendar.Numerals

/-!
# Dates and times that are read back

Dates and times of day are read back from their texts, leap seconds and years before and after those
of four digits included. Instants are so only in a year of four digits: with any other year the text
of an instant has a sign in front, and instants are read without.
-/

namespace ModelSurface

open Calendar Text

/-! ### Dates -/

namespace Date

theorem month_lt (date : Date) : 1 ≤ date.month ∧ date.month ≤ 12 :=
  ⟨date.valid.2.2.1, date.valid.2.2.2.1⟩

theorem day_le (date : Date) : 1 ≤ date.day ∧ date.day ≤ 31 := by
  obtain ⟨-, -, -, -, hfirst, hlast⟩ := date.valid
  refine ⟨hfirst, hlast.trans ?_⟩
  unfold daysInMonth
  split
  · split <;> decide
  · split <;> decide

theorem of?_self (date : Date) : of? date.year date.month date.day = some date :=
  dif_pos date.valid

/-- A year that may stand without a sign has a digit in front. -/
theorem readYear_digits {text rest : List Char} {n : ℕ} (h : Digits text)
    (hread : readNumber 4 (text ++ rest) = .ok (n, rest)) (hn : n ≤ 2147483647) :
    readYear (text ++ rest) = .ok ((n : Int), rest) := by
  obtain ⟨c, others, rfl, hc⟩ := h.head
  have hminus : c ≠ '-' := by rintro rfl; cases hc
  have hplus : c ≠ '+' := by rintro rfl; cases hc
  unfold readYear
  split
  · rename_i heq
    exact absurd (List.cons.inj heq).1 hminus
  · rename_i heq
    exact absurd (List.cons.inj heq).1 hplus
  · rw [hread]
    exact if_pos (by omega)

theorem readYear_signed {text rest : List Char} {n : ℕ} {negative : Prop} [Decidable negative]
    (hread : readNumber text.length text = .ok (n, rest)) (hn : n ≤ 2147483647) :
    readYear ((if negative then '-' else '+') :: text) =
      .ok (if negative then -(n : Int) else n, rest) := by
  by_cases hnegative : negative
  · rw [if_pos hnegative, if_pos hnegative]
    simp only [readYear, hread, Except.map, bind, Except.bind]
    exact if_pos (by omega)
  · rw [if_neg hnegative, if_neg hnegative]
    simp only [readYear, hread, Except.map, bind, Except.bind]
    exact if_pos (by omega)

theorem readYear_yearChars {date : Date} {rest : List Char} (hrest : Stops rest) :
    readYear (yearChars date.year ++ rest) = .ok (date.year, rest) := by
  obtain ⟨hlow, hhigh, -⟩ := date.valid
  unfold yearChars
  split
  · rename_i hfour
    have hn : date.year.toNat < 10 ^ 4 := by omega
    have hread : readNumber 4 (padded 4 date.year.toNat ++ rest) = .ok (_, rest) :=
      readNumber_digits (digits_padded 4 date.year.toNat) (length_padded (by decide) hn).le
        (.inl (length_padded (by decide) hn))
    rw [digitsValue_padded] at hread
    rw [readYear_digits (digits_padded 4 _) hread (by omega), Int.toNat_of_nonneg hfour.1]
  · -- Behind a sign, digits are read as far as they go.
    have hread : readNumber (padded 4 date.year.natAbs ++ rest).length
        (padded 4 date.year.natAbs ++ rest) = .ok (_, rest) :=
      readNumber_digits (digits_padded 4 date.year.natAbs) (by rw [List.length_append]; omega)
        (.inr hrest)
    rw [digitsValue_padded] at hread
    rw [List.cons_append, readYear_signed hread (by omega)]
    by_cases hnegative : date.year < 0
    · rw [if_pos hnegative, Int.ofNat_natAbs_of_nonpos hnegative.le, Int.neg_neg]
    · rw [if_neg hnegative, Int.natAbs_of_nonneg (Int.not_lt.mp hnegative)]

theorem dropBlanks_yearChars (year : Int) (rest : List Char) :
    dropBlanks (yearChars year ++ rest) = yearChars year ++ rest := by
  unfold yearChars
  split
  · exact (digits_padded 4 _).dropBlanks rest
  · split
    · exact List.dropWhile_cons_of_neg (by decide)
    · exact List.dropWhile_cons_of_neg (by decide)

/-- A date is read back from its text. -/
theorem ofText_text (date : Date) : ofText date.text = .ok date := by
  have hmonth := date.month_lt
  have hday := date.day_le
  have hdash : ∀ rest, Stops ('-' :: rest) := stops_cons rfl
  unfold ofText text ofChars
  rw [String.toList_ofList]
  unfold chars
  simp only [List.cons_append, List.append_assoc]
  rw [dropBlanks_yearChars, readYear_yearChars (hdash _)]
  dsimp only [bind, Except.bind]
  rw [readSeparator_self]
  dsimp only
  rw [readField_padded (by decide) (by omega) hmonth.1 hmonth.2]
  dsimp only
  rw [readSeparator_self]
  dsimp only
  rw [← List.append_nil (padded 2 date.day),
    readField_padded (by decide) (by omega) hday.1 hday.2]
  dsimp only
  rw [of?_self]
  rfl

end Date

/-! ### Times of day -/

namespace Time

theorem of?_self (time : Time) : of? time.hour time.minute time.second time.nano = some time :=
  dif_pos ⟨time.hour_lt, time.minute_lt, time.second_lt, time.nano_lt⟩

theorem shownSecond_le (time : Time) : time.shownSecond ≤ 60 := by
  have hsecond := time.second_lt
  have hnano := time.nano_lt
  unfold shownSecond
  omega

/-- A time is the one that a clock shows, with second 60 for a leap second. -/
theorem ofClock?_shown (time : Time) :
    ofClock? time.hour time.minute time.shownSecond (time.nano % 1000000000) = some time := by
  have hsecond := time.second_lt
  unfold ofClock? shownSecond
  rcases time.nano_lt with hplain | ⟨hlast, hleap⟩
  · rw [Nat.div_eq_of_lt hplain, Nat.mod_eq_of_lt hplain, Nat.add_zero, if_neg (by omega), of?_self]
  · by_cases hplain : time.nano < 1000000000
    · rw [Nat.div_eq_of_lt hplain, Nat.mod_eq_of_lt hplain, Nat.add_zero, if_neg (by omega),
        of?_self]
    · rw [if_pos (by omega), show 1000000000 + time.nano % 1000000000 = time.nano by omega, ← hlast,
        of?_self]

/-- A fraction is left out if it is zero, and read back otherwise. -/
theorem fractionChars_cases {nano : ℕ} (h : nano < 1000000000) :
    (nano = 0 ∧ fractionChars nano = []) ∨ ∃ digits, fractionChars nano = '.' :: digits ∧
      ∀ rest, Stops rest → readFraction (digits ++ rest) = .ok (nano, rest) := by
  unfold fractionChars
  split
  · rename_i hzero
    exact .inl ⟨hzero, rfl⟩
  · right
    split
    · refine ⟨_, rfl, fun rest hrest => ?_⟩
      rw [readFraction_padded (by decide) (by decide) (by omega) hrest]
      congr 2
      omega
    · split
      · refine ⟨_, rfl, fun rest hrest => ?_⟩
        rw [readFraction_padded (by decide) (by decide) (by omega) hrest]
        congr 2
        omega
      · refine ⟨_, rfl, fun rest hrest => ?_⟩
        rw [readFraction_padded (by decide) (by decide) (by omega) hrest, Nat.sub_self,
          Nat.pow_zero, Nat.mul_one]

theorem readMinutes_padded (time : Time) (rest : List Char) :
    readMinutes (padded 2 time.hour ++ ':' :: (padded 2 time.minute ++ rest)) =
      .ok (time.hour, time.minute, rest) := by
  have hhour := time.hour_lt
  have hminute := time.minute_lt
  unfold readMinutes
  rw [readField_padded (by decide) (by omega) (Nat.zero_le _) (by omega)]
  dsimp only [bind, Except.bind]
  rw [readSeparator_self]
  dsimp only
  rw [readField_padded (by decide) (by omega) (Nat.zero_le _) (by omega)]

theorem complete_shown (time : Time) :
    complete time.hour time.minute time.shownSecond (time.nano % 1000000000) [] = .ok time := by
  unfold complete
  rw [ofClock?_shown]
  rfl

/-- A time of day is read back from its text. -/
theorem ofText_text (time : Time) : ofText time.text = .ok time := by
  have hsecond := time.shownSecond_le
  have hread : ofSecondsChars time.text.toList = .ok time := by
    unfold ofSecondsChars text
    rw [String.toList_ofList]
    unfold chars
    simp only [List.cons_append, List.append_assoc]
    rw [readMinutes_padded]
    dsimp only [bind, Except.bind]
    rw [readSeparator_self]
    dsimp only
    rw [readField_padded (by decide) (by omega) (Nat.zero_le _) hsecond]
    dsimp only
    obtain ⟨hzero, hnone⟩ | ⟨digits, hsome, hfraction⟩ :=
      fractionChars_cases (Nat.mod_lt time.nano (by decide : 0 < 1000000000))
    · have hcomplete := time.complete_shown
      rw [hzero] at hcomplete
      rw [hnone]
      exact hcomplete
    · rw [hsome]
      change (readFraction digits).bind _ = _
      rw [← List.append_nil digits, hfraction [] stops_nil]
      exact time.complete_shown
  unfold ofText
  rw [hread]

end Time

/-! ### Instants -/

namespace Instant

/-- A date of a year with four digits is read in front of whatever follows it. -/
theorem readDate_chars {date : Date} (hyear : 0 ≤ date.year ∧ date.year < 10000)
    (rest : List Char) : readDate (date.chars ++ rest) = .ok (date, rest) := by
  have hmonth := date.month_lt
  have hday := date.day_le
  have hn : date.year.toNat < 10 ^ 4 := by omega
  have hdigits := digits_padded 4 date.year.toNat
  have hlength := length_padded (by decide) hn
  have hvalue := digitsValue_padded 4 date.year.toNat
  unfold Date.chars Date.yearChars
  rw [if_pos hyear]
  obtain ⟨a, b, c, d, hfour⟩ := List.length_eq_four.mp hlength
  rw [hfour] at hdigits hvalue ⊢
  have hcentury : Digits [a, b] :=
    ⟨List.cons_ne_nil _ _, fun x hx => hdigits.digits x (List.mem_append_left [c, d] hx)⟩
  have hrest : Digits [c, d] :=
    ⟨List.cons_ne_nil _ _, fun x hx => hdigits.digits x (List.mem_append_right [a, b] hx)⟩
  have hyear_value : digitsValue [a, b] * 100 + digitsValue [c, d] = date.year.toNat := by
    rw [← hvalue]
    exact (digitsValue_append [a, b] [c, d]).symm
  have hfirst : ∀ rest, readTwo (a :: b :: rest) = .ok (digitsValue [a, b], rest) :=
    readTwo_digits hcentury rfl
  have hsecond : ∀ rest, readTwo (c :: d :: rest) = .ok (digitsValue [c, d], rest) :=
    readTwo_digits hrest rfl
  unfold readDate
  simp only [List.cons_append, List.append_assoc, List.nil_append]
  rw [hfirst]
  dsimp only [bind, Except.bind]
  rw [hsecond]
  dsimp only
  rw [readSeparator_self]
  dsimp only
  rw [readTwo_padded (by omega)]
  dsimp only
  rw [readSeparator_self]
  dsimp only
  rw [readTwo_padded (by omega)]
  dsimp only
  rw [hyear_value, Int.toNat_of_nonneg hyear.1, Date.of?_self]

/-- A time of day is read in front of whatever follows it, unless that is a digit or a fraction. -/
theorem readTime_chars (time : Time) {rest : List Char} (hrest : Stops rest)
    (hpoint : ∀ others, rest ≠ '.' :: others) :
    readTime (time.chars ++ rest) = .ok (time, rest) := by
  have hhour := time.hour_lt
  have hminute := time.minute_lt
  have hsecond := time.shownSecond_le
  unfold readTime Time.chars
  simp only [List.cons_append, List.append_assoc]
  rw [readTwo_padded (by omega)]
  dsimp only [bind, Except.bind]
  rw [readSeparator_self]
  dsimp only
  rw [readTwo_padded (by omega)]
  dsimp only
  rw [readSeparator_self]
  dsimp only
  rw [readTwo_padded (by omega)]
  dsimp only
  obtain ⟨hzero, hnone⟩ | ⟨digits, hsome, hfraction⟩ :=
    Time.fractionChars_cases (Nat.mod_lt time.nano (by decide : 0 < 1000000000))
  · have hshown := time.ofClock?_shown
    rw [hzero] at hshown
    rw [hnone, List.nil_append]
    split
    · exact absurd rfl (hpoint _)
    · rw [hshown]
  · rw [hsome, List.cons_append]
    simp only [hfraction rest hrest, time.ofClock?_shown]

/-- Without an offset, a clock shows the instant itself. -/
theorem ofLocal?_zero (date : Date) (time : Time) : ofLocal? date time 0 = some ⟨date, time⟩ := by
  have hhour := time.hour_lt
  have hminute := time.minute_lt
  have hday : (((time.hour * 60 + time.minute : ℕ) - 0 : Int) % 1440).toNat =
      time.hour * 60 + time.minute := by omega
  unfold ofLocal?
  dsimp only
  rw [hday, show (time.hour * 60 + time.minute) / 60 = time.hour by omega,
    show (time.hour * 60 + time.minute) % 60 = time.minute by omega, Time.of?_self]
  dsimp only [bind, Option.bind]
  rw [if_neg (by omega), if_neg (by omega)]

theorem length_le_utf8ByteSize (text : List Char) :
    text.length ≤ (String.ofList text).utf8ByteSize := by
  rw [String.utf8ByteSize_ofList]
  induction text with
  | nil => exact Nat.le_refl _
  | cons c text ih =>
      have hsize := c.utf8Size_pos
      rw [String.utf8Len_cons, List.length_cons]
      omega

/-- An instant is read back from its text if its year has four digits, and only then. -/
theorem ofText_text_iff (instant : Instant) :
    ofText instant.text = .ok instant ↔ 0 ≤ instant.date.year ∧ instant.date.year < 10000 := by
  constructor
  · intro hread
    by_contra hyear
    unfold ofText at hread
    split at hread
    · cases hread
    · have hsign : ∃ c rest, instant.text.toList = c :: rest ∧ c.isDigit = false := by
        unfold text Date.chars Date.yearChars
        rw [String.toList_ofList, if_neg hyear]
        refine ⟨_, _, rfl, ?_⟩
        split <;> rfl
      obtain ⟨c, rest, htext, hc⟩ := hsign
      rw [htext] at hread
      have hrefused : ∃ fault, readTwo (c :: rest) = .error fault := by
        cases rest with
        | nil => exact ⟨_, rfl⟩
        | cons d rest =>
            refine ⟨.invalid, if_neg ?_⟩
            rw [hc, Bool.false_and]
            exact Bool.false_ne_true
      obtain ⟨fault, hfault⟩ := hrefused
      unfold readDate at hread
      rw [hfault] at hread
      cases hread
  · intro hyear
    have hlong : 19 ≤ instant.text.utf8ByteSize := by
      refine le_trans ?_ (length_le_utf8ByteSize _)
      have hfour := le_length_padded 4 instant.date.year.toNat
      have htwo := le_length_padded 2
      have hmonth := htwo instant.date.month
      have hday := htwo instant.date.day
      have hhour := htwo instant.time.hour
      have hminute := htwo instant.time.minute
      have hsecond := htwo instant.time.shownSecond
      unfold Date.chars Date.yearChars Time.chars
      rw [if_pos hyear]
      simp only [List.length_append, List.length_cons]
      omega
    unfold ofText
    rw [if_neg (Nat.not_lt.mpr hlong)]
    unfold text
    rw [String.toList_ofList, List.append_assoc, readDate_chars hyear]
    have hzone := readTime_chars instant.time (stops_cons (by decide : 'Z'.isDigit = false) [])
      fun others h => by cases h
    have hoffset : readOffset ['Z'] = .ok (0, []) := rfl
    dsimp only [bind, Except.bind, List.cons_append]
    rw [if_pos (by decide), hzone]
    dsimp only
    rw [hoffset]
    dsimp only
    rw [if_neg (by decide), if_neg (by omega), ofLocal?_zero]

end Instant

end ModelSurface
