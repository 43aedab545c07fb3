import ModelSurface.Json.Token
import ModelSurface.Proofs.Numeric.Shortest

/-!
# Reading the text of a number

The text that is written for a number is read as that number, whatever stands behind it: the digits
of an integer as they are, those of a floating point number around a point or in front of an
exponent.
-/

namespace ModelSurface

/-! ### Decimals of numbers -/

namespace Binary64

/-- All spellings of the decimal that is written for a number are read as the number. -/
theorem ofDecimal?_of_value {x : Binary64} {digits : ℕ} {exponent : ℤ}
    (h : decimalValue digits exponent = x.shortest.value) :
    ofDecimal? x.negative digits exponent = some x := by
  by_cases hzero : x.magnitude = 0
  · have hshortest : x.shortest = { digits := ['0'], exponent := 0 } := if_pos hzero
    have hvalue : DecimalDigits.value { digits := ['0'], exponent := 0 } = 0 := by
      simp [DecimalDigits.value, decimalValue, Text.digitsValue]
    rw [hshortest, hvalue, decimalValue, mul_eq_zero] at h
    have hdigits : digits = 0 := by
      exact_mod_cast h.resolve_right (zpow_ne_zero _ (by norm_num))
    obtain ⟨negative, magnitude, hfinite⟩ := x
    obtain rfl : magnitude = 0 := hzero
    exact if_pos hdigits
  · exact ofDecimal?_eq hzero (h ▸ rounds_shortest hzero)

end Binary64

namespace Json

open Text

/-! ### Numbers in front of something else -/

/-- What may stand behind a value. -/
def Behind (rest : List Char) : Prop := ∀ c ∈ rest.head?, c = ',' ∨ c = ']' ∨ c = '\x7d'

theorem behind_nil : Behind [] := nofun

namespace Scan

variable {rest : List Char}

theorem run_more {scan scan' : NumberScan} {c : Char} (h : scan.step c = .more scan')
    (rest : List Char) : run (.number scan) (c :: rest) = run (.number scan') rest := by
  rw [run, step, h]
  rfl

/-- A number ends in front of what may stand behind a value. -/
theorem run_done {scan : NumberScan} {n : Number} (htoken : scan.token = .num n)
    (hdone : ∀ c, c = ',' ∨ c = ']' ∨ c = '\x7d' → scan.step c = .done) (hrest : Behind rest) :
    run (.number scan) rest = .num n :: run .ready rest := by
  cases rest with
  | nil =>
      change [scan.token] = [.num n]
      rw [htoken]
  | cons c rest =>
      have hc := hrest c rfl
      rw [run, step, hdone c hc, htoken]
      rcases hc with rfl | rfl | rfl <;> rfl

/-- Digits are read one by one, as long as none is refused. -/
theorem run_digits (state : List Char → NumberScan) (accepts : List Char → Prop)
    (hstep : ∀ read c, accepts read → c.isDigit →
      (state read).step c = .more (state (c :: read)) ∧ accepts (c :: read))
    {digits : List Char} (hdigits : ∀ c ∈ digits, c.isDigit) {read : List Char}
    (hread : accepts read) (rest : List Char) :
    run (.number (state read)) (digits ++ rest) =
      run (.number (state (digits.reverse ++ read))) rest := by
  induction digits generalizing read with
  | nil => rfl
  | cons c digits ih =>
      obtain ⟨hc, hothers⟩ := List.forall_mem_cons.mp hdigits
      obtain ⟨hmore, haccepts⟩ := hstep read c hread hc
      rw [List.cons_append, run_more hmore, ih hothers haccepts, List.reverse_cons,
        List.append_assoc]
      rfl

/-- The digits in front of the point: a zero only if there is no other digit. -/
structure Leads (text : List Char) : Prop where
  digits : ∀ c ∈ text, c.isDigit
  first : ∃ c others, text = c :: others ∧ (c = '0' → others = [])

def signChars (negative : Bool) : List Char := if negative then ['-'] else []

theorem start_digit {c : Char} (h : c.isDigit) : start c = (.number (.whole false [c]), []) := by
  have hblank : isBlank c = false := by
    unfold isBlank
    simp only [Bool.or_eq_false_iff, beq_eq_false_iff_ne, ne_eq]
    refine ⟨⟨⟨?_, ?_⟩, ?_⟩, ?_⟩ <;> rintro rfl <;> exact absurd h (by decide)
  unfold start
  rw [hblank, if_neg Bool.false_ne_true]
  split
  case h_12 => rw [if_pos h]
  all_goals cases h

theorem run_first {negative : Bool} {c : Char} (h : c.isDigit) (rest : List Char) :
    run .ready (signChars negative ++ c :: rest) = run (.number (.whole negative [c])) rest := by
  cases negative with
  | false =>
      change run .ready (c :: rest) = _
      rw [run, step, start_digit h]
      rfl
  | true =>
      change run .ready ('-' :: c :: rest) = _
      have hsign : NumberScan.step .sign c = .more (.whole true [c]) := if_pos h
      rw [run, show step .ready '-' = (.number .sign, []) from rfl]
      exact run_more hsign rest

theorem run_leads {negative : Bool} {digits : List Char} (h : Leads digits) (rest : List Char) :
    run .ready (signChars negative ++ digits ++ rest) =
      run (.number (.whole negative digits.reverse)) rest := by
  obtain ⟨c, others, rfl, hzero⟩ := h.first
  obtain ⟨hc, hothers⟩ := List.forall_mem_cons.mp h.digits
  rw [List.append_assoc, List.cons_append, run_first hc, List.reverse_cons]
  by_cases hfirst : c = '0'
  · rw [hzero hfirst]
    rfl
  · refine run_digits (.whole negative) (fun read => read ≠ [] ∧ read ≠ ['0']) ?_ hothers
      ⟨List.cons_ne_nil _ _, by simpa using hfirst⟩ rest
    rintro read d ⟨hnonempty, hread⟩ hd
    exact ⟨(if_pos hd).trans (if_neg (by simpa using hread)), List.cons_ne_nil _ _,
      by simp [hnonempty]⟩

theorem run_fraction {negative : Bool} {lead fraction : List Char} (hlead : Leads lead)
    (hfraction : ∀ c ∈ fraction, c.isDigit) (hnonempty : fraction ≠ []) (rest : List Char) :
    run .ready (signChars negative ++ lead ++ '.' :: (fraction ++ rest)) =
      run (.number (.fraction negative lead.reverse fraction.reverse)) rest := by
  obtain ⟨c, others, rfl⟩ := List.exists_cons_of_ne_nil hnonempty
  obtain ⟨hc, hothers⟩ := List.forall_mem_cons.mp hfraction
  have hpoint : NumberScan.step (.whole negative lead.reverse) '.' =
      .more (.point negative lead.reverse) := rfl
  have hfirst : NumberScan.step (.point negative lead.reverse) c =
      .more (.fraction negative lead.reverse [c]) := if_pos hc
  rw [run_leads hlead, run_more hpoint, List.cons_append, run_more hfirst, List.reverse_cons]
  refine run_digits (.fraction negative lead.reverse) (fun _ => True) ?_ hothers trivial rest
  exact fun read d _ hd => ⟨if_pos hd, trivial⟩

theorem run_power {scan : NumberScan} {negative down : Bool} {lead fraction power : List Char}
    (hmark : scan.step 'e' = .more (.mark negative lead fraction))
    (hpower : ∀ c ∈ power, c.isDigit) (hnonempty : power ≠ []) (rest : List Char) :
    run (.number scan) ('e' :: (if down then '-' else '+') :: (power ++ rest)) =
      run (.number (.power negative lead fraction down power.reverse)) rest := by
  obtain ⟨c, others, rfl⟩ := List.exists_cons_of_ne_nil hnonempty
  obtain ⟨hc, hothers⟩ := List.forall_mem_cons.mp hpower
  have hsign : NumberScan.step (.mark negative lead fraction) (if down then '-' else '+') =
      .more (.markSign negative lead fraction down) := by
    cases down <;> rfl
  have hfirst : NumberScan.step (.markSign negative lead fraction down) c =
      .more (.power negative lead fraction down [c]) := if_pos hc
  rw [run_more hmark, run_more hsign, List.cons_append, run_more hfirst, List.reverse_cons]
  refine run_digits (.power negative lead fraction down) (fun _ => True) ?_ hothers trivial rest
  exact fun read d _ hd => ⟨if_pos hd, trivial⟩

/-! ### Integers -/

theorem leads_toDigits (n : ℕ) : Leads (Nat.toDigits 10 n) := by
  refine ⟨fun c hc => Nat.isDigit_of_mem_toDigits (by norm_num) le_rfl hc, ?_⟩
  rcases eq_or_ne n 0 with rfl | hn
  · exact ⟨'0', [], rfl, fun _ => rfl⟩
  · obtain ⟨c, others, heq, hc⟩ := head_toDigits hn
    exact ⟨c, others, heq, fun hzero => absurd hzero hc⟩

theorem toList_toString (i : ℤ) :
    (toString i).toList = signChars (decide (i < 0)) ++ Nat.toDigits 10 i.natAbs := by
  cases i with
  | ofNat n =>
      change (toString n).toList = _
      rw [Nat.toString_eq_ofList_toDigits, String.toList_ofList]
      rfl
  | negSucc n =>
      change ("-" ++ toString (n + 1)).toList = _
      rw [String.toList_append, Nat.toString_eq_ofList_toDigits, String.toList_ofList,
        String.toList_ofList, decide_eq_true (Int.negSucc_lt_zero n), Int.natAbs_negSucc]
      rfl

theorem plainNumber?_int {i : ℤ} (hlow : -9223372036854775808 ≤ i)
    (hhigh : i ≤ 18446744073709551615) :
    plainNumber? (decide (i < 0)) (Nat.toDigits 10 i.natAbs) = some (.int i) := by
  unfold plainNumber?
  rw [digitsValue_toDigits]
  dsimp only
  by_cases hnegative : i < 0
  · rw [if_pos (decide_eq_true hnegative), if_pos (by omega)]
    congr 2
    omega
  · rw [if_neg (by simpa using hnegative), if_pos (by omega)]
    congr 2
    omega

theorem run_int {i : ℤ} (hlow : -9223372036854775808 ≤ i) (hhigh : i ≤ 18446744073709551615)
    (hrest : Behind rest) :
    run .ready ((toString i).toList ++ rest) = .num (.int i) :: run .ready rest := by
  rw [toList_toString, run_leads (leads_toDigits _)]
  refine run_done ?_ (by rintro c (rfl | rfl | rfl) <;> rfl) hrest
  change NumberScan.token.ofNumber? (plainNumber? _ _) = _
  rw [List.reverse_reverse, plainNumber?_int hlow hhigh]
  rfl

/-! ### Floating point numbers -/

theorem floatNumber?_eq {x : Binary64} {lead fraction : List Char} {exponent : ℤ}
    (h : Binary64.decimalValue (digitsValue (lead ++ fraction)) (exponent - fraction.length) =
      x.shortest.value) : floatNumber? x.negative lead fraction exponent = some (.float x) := by
  unfold floatNumber?
  rw [Binary64.ofDecimal?_of_value h]
  rfl

/-- Digits around a point. -/
theorem run_point {x : Binary64} {lead fraction : List Char} (hlead : Leads lead)
    (hfraction : ∀ c ∈ fraction, c.isDigit) (hnonempty : fraction ≠ [])
    (h : Binary64.decimalValue (digitsValue (lead ++ fraction)) (-fraction.length) =
      x.shortest.value) (hrest : Behind rest) :
    run .ready (signChars x.negative ++ (lead ++ '.' :: fraction) ++ rest) =
      .num (.float x) :: run .ready rest := by
  rw [← List.append_assoc, List.append_assoc, List.cons_append,
    run_fraction hlead hfraction hnonempty]
  refine run_done ?_ (by rintro c (rfl | rfl | rfl) <;> rfl) hrest
  change NumberScan.token.ofNumber? (floatNumber? _ _ _ _) = _
  rw [List.reverse_reverse, List.reverse_reverse, floatNumber?_eq (by simpa using h)]
  rfl

/-- Digits, perhaps around a point, and an exponent. -/
theorem run_exponent {x : Binary64} {lead fraction : List Char} {power : ℤ} (hlead : Leads lead)
    (hfraction : ∀ c ∈ fraction, c.isDigit)
    (h : Binary64.decimalValue (digitsValue (lead ++ fraction)) (power - fraction.length) =
      x.shortest.value) (hrest : Behind rest) :
    run .ready (signChars x.negative ++ (lead ++
      (if fraction.isEmpty then [] else '.' :: fraction) ++
      'e' :: (if power < 0 then '-' else '+') :: Nat.toDigits 10 power.natAbs) ++ rest) =
      .num (.float x) :: run .ready rest := by
  have hdigits := (leads_toDigits power.natAbs).digits
  have hnonempty : Nat.toDigits 10 power.natAbs ≠ [] :=
    List.length_pos_iff.mp Nat.length_toDigits_pos
  have hsign : (if power < 0 then '-' else '+') = if decide (power < 0) then '-' else '+' := by
    simp only [decide_eq_true_eq]
  -- what has been read once the exponent is complete
  have hread : run .ready (signChars x.negative ++ (lead ++
      (if fraction.isEmpty then [] else '.' :: fraction) ++
      'e' :: (if power < 0 then '-' else '+') :: Nat.toDigits 10 power.natAbs) ++ rest) =
      run (.number (.power x.negative lead.reverse fraction.reverse (decide (power < 0))
        (Nat.toDigits 10 power.natAbs).reverse)) rest := by
    rw [hsign]
    cases hcases : fraction with
    | nil =>
        have hmark : NumberScan.step (.whole x.negative lead.reverse) 'e' =
            .more (.mark x.negative lead.reverse []) := rfl
        rw [List.isEmpty_nil, if_pos rfl, List.append_nil, ← List.append_assoc, List.append_assoc,
          run_leads hlead]
        exact run_power hmark hdigits hnonempty rest
    | cons c others =>
        rw [← hcases]
        have hfraction_nonempty : fraction ≠ [] := hcases ▸ List.cons_ne_nil c others
        have hmark : NumberScan.step (.fraction x.negative lead.reverse fraction.reverse) 'e' =
            .more (.mark x.negative lead.reverse fraction.reverse) := rfl
        rw [if_neg (by simpa using hfraction_nonempty)]
        have hassoc : ∀ ending : List Char, signChars x.negative ++
            (lead ++ '.' :: fraction ++ ending) ++ rest =
            signChars x.negative ++ lead ++ '.' :: (fraction ++ (ending ++ rest)) := by
          intro ending
          simp only [List.append_assoc, List.cons_append]
        rw [hassoc, run_fraction hlead hfraction hfraction_nonempty]
        exact run_power hmark hdigits hnonempty rest
  rw [hread]
  refine run_done ?_ (by rintro c (rfl | rfl | rfl) <;> rfl) hrest
  have hpower : (if decide (power < 0) then -(power.natAbs : ℤ) else power.natAbs) = power := by
    by_cases hnegative : power < 0
    · rw [if_pos (decide_eq_true hnegative)]
      omega
    · rw [if_neg (by simpa using hnegative)]
      omega
  change NumberScan.token.ofNumber? (floatNumber? _ _ _ (if _ then -(_ : ℤ) else _)) = _
  rw [List.reverse_reverse, List.reverse_reverse, List.reverse_reverse, digitsValue_toDigits,
    hpower, floatNumber?_eq h]
  rfl

section Layouts

variable {x : Binary64} {d : DecimalDigits} (hplain : d.Plain) (hvalue : d.value = x.shortest.value)
  (hrest : Behind rest)

include hplain hvalue hrest

/-- Digits in front of the point. -/
theorem run_before (hexponent : 0 ≤ d.exponent) :
    run .ready (signChars x.negative ++
      (d.digits ++ List.replicate d.exponent.toNat '0' ++ ['.', '0']) ++ rest) =
        .num (.float x) :: run .ready rest := by
  obtain ⟨c, others, hdigits, hzero⟩ := hplain.first
  obtain ⟨n, hn⟩ := Int.eq_ofNat_of_zero_le hexponent
  have hlead : Leads (d.digits ++ List.replicate d.exponent.toNat '0') := by
    refine ⟨fun digit hdigit => ?_, c, others ++ List.replicate d.exponent.toNat '0', ?_, ?_⟩
    · rcases List.mem_append.mp hdigit with hmem | hmem
      · exact hplain.digits digit hmem
      · rw [List.eq_of_mem_replicate hmem]
        rfl
    · rw [hdigits, List.cons_append]
    · intro hfirst
      obtain ⟨hothers, hnone⟩ := hzero hfirst
      rw [hothers, hnone]
      rfl
  have hzero_digit : ∀ digit ∈ ['0'], digit.isDigit := by simp
  refine run_point hlead hzero_digit (by simp) ?_ hrest
  rw [← hvalue, digitsValue_append, digitsValue_append, digitsValue_zeros, hn]
  unfold DecimalDigits.value Binary64.decimalValue
  rw [hn, Int.toNat_natCast, List.length_replicate, show digitsValue ['0'] = 0 from rfl]
  push_cast
  norm_num
  ring

/-- Digits on both sides of the point. -/
theorem run_around (hpoint : 0 < d.point) (hexponent : d.exponent < 0) :
    run .ready (signChars x.negative ++
      (d.digits.take d.point.toNat ++ '.' :: d.digits.drop d.point.toNat) ++ rest) =
        .num (.float x) :: run .ready rest := by
  obtain ⟨c, others, hdigits, hzero⟩ := hplain.first
  have hlength : d.point = d.exponent + d.digits.length := rfl
  refine run_point ⟨fun digit hdigit => hplain.digits digit (List.mem_of_mem_take hdigit), ?_⟩
    (fun digit hdigit => hplain.digits digit (List.mem_of_mem_drop hdigit)) ?_ ?_ hrest
  · obtain ⟨n, hn⟩ : ∃ n, d.point.toNat = n + 1 := ⟨d.point.toNat - 1, by omega⟩
    refine ⟨c, others.take n, by rw [hdigits, hn, List.take_succ_cons], fun hfirst => ?_⟩
    rw [(hzero hfirst).1, List.take_nil]
  · exact fun hnil => absurd (List.drop_eq_nil_iff.mp hnil) (by omega)
  · rw [← hvalue, List.take_append_drop, List.length_drop]
    unfold DecimalDigits.value
    congr 1
    omega

/-- Digits behind the point. -/
theorem run_behind (hpoint : d.point ≤ 0) :
    run .ready (signChars x.negative ++
      ('0' :: '.' :: List.replicate (-d.point).toNat '0' ++ d.digits) ++ rest) =
        .num (.float x) :: run .ready rest := by
  obtain ⟨c, others, hdigits, -⟩ := hplain.first
  have hlength : d.point = d.exponent + d.digits.length := rfl
  have hfraction : ∀ digit ∈ List.replicate (-d.point).toNat '0' ++ d.digits, digit.isDigit := by
    intro digit hdigit
    rcases List.mem_append.mp hdigit with hmem | hmem
    · rw [List.eq_of_mem_replicate hmem]
      rfl
    · exact hplain.digits digit hmem
  have hlead : Leads ['0'] := ⟨by simp, '0', [], rfl, fun _ => rfl⟩
  have hdecimal : Binary64.decimalValue
      (digitsValue (['0'] ++ (List.replicate (-d.point).toNat '0' ++ d.digits)))
      (-(List.replicate (-d.point).toNat '0' ++ d.digits).length) = x.shortest.value := by
    rw [← hvalue, digitsValue_append, digitsValue_append, digitsValue_zeros,
      show digitsValue ['0'] = 0 from rfl, Nat.zero_mul, Nat.zero_mul, Nat.zero_add, Nat.zero_add,
      List.length_append, List.length_replicate]
    unfold DecimalDigits.value
    congr 1
    omega
  exact run_point hlead hfraction (by simp [hdigits]) hdecimal hrest

theorem run_scientific :
    run .ready (signChars x.negative ++ d.scientific ++ rest) =
      .num (.float x) :: run .ready rest := by
  obtain ⟨c, others, hdigits, -⟩ := hplain.first
  have hlength : d.point = d.exponent + d.digits.length := rfl
  refine run_exponent ⟨fun digit hdigit => hplain.digits digit (List.mem_of_mem_take hdigit), ?_⟩
    (fun digit hdigit => hplain.digits digit (List.mem_of_mem_drop hdigit)) ?_ hrest
  · exact ⟨c, [], by rw [hdigits]; rfl, fun _ => rfl⟩
  · rw [← hvalue, List.take_append_drop, List.length_drop, hlength, hdigits, List.length_cons]
    unfold DecimalDigits.value
    rw [hdigits]
    congr 1
    omega

end Layouts

/-- The text of a floating point number is read as that number. -/
theorem run_float {x : Binary64} (hrest : Behind rest) :
    run .ready (x.text.toList ++ rest) = .num (.float x) :: run .ready rest := by
  have htext : ∀ body : List Char, (if x.negative then '-' :: body else body) =
      signChars x.negative ++ body := by
    intro body
    cases x.negative <;> rfl
  unfold Binary64.text
  dsimp only
  rw [String.toList_ofList, htext]
  split
  · unfold DecimalDigits.positional
    split
    · exact run_before x.plain_shortest rfl hrest ‹_›
    · split
      · exact run_around x.plain_shortest rfl hrest ‹_› (not_le.mp ‹_›)
      · exact run_behind x.plain_shortest rfl hrest (not_lt.mp ‹_›)
  · exact run_scientific x.plain_shortest rfl hrest

end Scan

end Json

end ModelSurface
