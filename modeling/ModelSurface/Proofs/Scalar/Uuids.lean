import ModelSurface.Proofs.Json.Lexing
import ModelSurface.Uuid

/-!
# Identifiers that are read back

An identifier is written with its digits in five groups, and read back from them.
-/

namespace ModelSurface.Uuid

/-! ### Digits -/

theorem hexDigit_ne_hyphen : ∀ n < 16, Json.hexDigit n ≠ '-' := by decide

/-- A text that consists of the digits of a number. -/
def Hexadecimal (text : List Char) : Prop := ∀ c ∈ text, ∃ n < 16, c = Json.hexDigit n

theorem hexadecimal_hexDigits (count n : ℕ) : Hexadecimal (hexDigits count n) := by
  induction count generalizing n with
  | zero => exact fun c hc => absurd hc List.not_mem_nil
  | succ count ih =>
      intro c hc
      rcases List.mem_append.mp hc with hfront | hlast
      · exact ih (n / 16) c hfront
      · exact ⟨n % 16, Nat.mod_lt _ (by decide), List.mem_singleton.mp hlast⟩

theorem length_hexDigits (count n : ℕ) : (hexDigits count n).length = count := by
  induction count generalizing n with
  | zero => rfl
  | succ count ih => rw [hexDigits, List.length_append, ih, List.length_singleton]

theorem hexValueOf?_hexDigits (count n : ℕ) :
    hexValueOf? (hexDigits count n) = some (n % 16 ^ count) := by
  induction count generalizing n with
  | zero => rw [Nat.pow_zero, Nat.mod_one]; rfl
  | succ count ih =>
      have hfront := ih (n / 16)
      unfold hexValueOf? at hfront ⊢
      rw [hexDigits, List.foldlM_append, hfront]
      change ((Json.hexValue? (Json.hexDigit (n % 16))).map fun d =>
        n / 16 % 16 ^ count * 16 + d).bind some = _
      rw [Json.Scan.hexValue?_hexDigit _ (Nat.mod_lt _ (by decide)), Option.map_some,
        Option.bind_some, Nat.pow_succ', Nat.mod_mul]
      congr 1
      ring

namespace Hexadecimal

variable {text : List Char} (h : Hexadecimal text)

include h

theorem ne_hyphen : ∀ c ∈ text, c ≠ '-' := by
  intro c hc
  obtain ⟨n, hn, rfl⟩ := h c hc
  exact hexDigit_ne_hyphen n hn

theorem utf8Size : ∀ c ∈ text, c.utf8Size = 1 := by
  intro c hc
  obtain ⟨n, hn, rfl⟩ := h c hc
  exact Json.Scan.utf8Size_hexDigit n hn

/-- The hyphens of a text are found behind a group of digits. -/
theorem hyphens (position : ℕ) (rest : List Char) :
    Uuid.hyphens position (text ++ rest) = Uuid.hyphens (position + text.length) rest := by
  induction text generalizing position with
  | nil => rfl
  | cons c text ih =>
      obtain ⟨hc, hothers⟩ := List.forall_mem_cons.mp h
      have hne := h.ne_hyphen c List.mem_cons_self
      rw [List.cons_append, Uuid.hyphens, if_neg (by simpa using hne), ih hothers, List.length_cons,
        Nat.add_right_comm, Nat.add_assoc]

theorem filter : text.filter (· ≠ '-') = text :=
  List.filter_eq_self.mpr fun c hc => decide_eq_true (h.ne_hyphen c hc)

end Hexadecimal

/-! ### Groups -/

theorem octets_eq_length {text : List Char} (h : ∀ c ∈ text, c.utf8Size = 1) :
    octets text = text.length := by
  have hfold : ∀ n, text.foldl (fun n c => n + c.utf8Size) n = n + text.length := by
    induction text with
    | nil => exact fun n => rfl
    | cons c text ih =>
        intro n
        obtain ⟨hc, hothers⟩ := List.forall_mem_cons.mp h
        rw [List.foldl_cons, ih hothers, hc, List.length_cons]
        omega
  rw [octets, hfold, Nat.zero_add]

/-- The groups of digits of an identifier, between hyphens. -/
theorem exists_groups (u : Uuid) : ∃ a b c d e : List Char,
    hexDigits 32 u.value = a ++ b ++ c ++ d ++ e ∧
      u.chars = a ++ '-' :: b ++ '-' :: c ++ '-' :: d ++ '-' :: e ∧
      a.length = 8 ∧ b.length = 4 ∧ c.length = 4 ∧ d.length = 4 ∧ e.length = 12 := by
  have hlength := length_hexDigits 32 u.value
  refine ⟨_, _, _, _, _, ?_, rfl, ?_, ?_, ?_, ?_, ?_⟩
  · have htake : ∀ (i j : ℕ) (text : List Char),
        text.take i ++ (text.drop i).take j = text.take (i + j) :=
      fun i j text => List.take_add.symm
    rw [htake, htake, htake, List.take_append_drop]
  all_goals simp only [List.length_take, List.length_drop, hlength, Nat.reduceSub,
    Nat.reduceLeDiff, Nat.min_eq_left]

theorem ofNat_value (u : Uuid) : ofNat u.value = u := by
  cases u with
  | mk value hlt => exact Uuid.mk.injEq _ _ _ _ |>.mpr (Nat.mod_eq_of_lt hlt)

/-- An identifier is read back from its text. -/
theorem ofText_text (u : Uuid) : ofText u.text = .ok u := by
  obtain ⟨a, b, c, d, e, hdigits, hchars, ha, hb, hc, hd, he⟩ := u.exists_groups
  have hall := hexadecimal_hexDigits 32 u.value
  have hpart : ∀ part : List Char, part ⊆ hexDigits 32 u.value → Hexadecimal part :=
    fun part hsub c hmem => hall c (hsub hmem)
  rw [hdigits] at hpart
  have hexa : Hexadecimal a := hpart a (by simp [List.append_assoc])
  have hexb : Hexadecimal b := hpart b (by intro x hx; simp [hx])
  have hexc : Hexadecimal c := hpart c (by intro x hx; simp [hx])
  have hexd : Hexadecimal d := hpart d (by intro x hx; simp [hx])
  have hexe : Hexadecimal e := hpart e (by intro x hx; simp [hx])
  have hlength : u.chars.length = 36 := by
    rw [hchars]
    simp only [List.length_append, List.length_cons, ha, hb, hc, hd, he]
  have hsize : octets u.chars = 36 := by
    rw [octets_eq_length, hlength]
    rw [hchars]
    intro x hx
    simp only [List.mem_append, List.mem_cons] at hx
    rcases hx with (((hx | rfl | hx) | rfl | hx) | rfl | hx) | rfl | hx
    all_goals first
      | rfl
      | exact hexa.utf8Size x hx
      | exact hexb.utf8Size x hx
      | exact hexc.utf8Size x hx
      | exact hexd.utf8Size x hx
      | exact hexe.utf8Size x hx
  have hhyphens : hyphens 0 u.chars = [8, 13, 18, 23] := by
    rw [hchars]
    simp only [List.append_assoc, List.cons_append]
    rw [hexa.hyphens, ha]
    change 8 :: hyphens 9 _ = _
    rw [hexb.hyphens, hb]
    change 8 :: 13 :: hyphens 14 _ = _
    rw [hexc.hyphens, hc]
    change 8 :: 13 :: 18 :: hyphens 19 _ = _
    rw [hexd.hyphens, hd]
    change 8 :: 13 :: 18 :: 23 :: hyphens 24 _ = _
    rw [← List.append_nil e, hexe.hyphens]
    rfl
  have hfilter : u.chars.filter (· ≠ '-') = hexDigits 32 u.value := by
    rw [hchars, hdigits]
    simp only [List.filter_append, List.filter_cons, hexa.filter, hexb.filter, hexc.filter,
      hexd.filter, hexe.filter]
    rfl
  have hvalue : ofHyphenated? u.chars = some u.value := by
    unfold ofHyphenated?
    rw [if_pos ⟨hlength, hhyphens⟩, hfilter, hexValueOf?_hexDigits]
    exact congrArg some (Nat.mod_eq_of_lt u.value_lt)
  unfold ofText text
  rw [String.toList_ofList]
  dsimp only
  rw [hsize, if_neg (by decide)]
  unfold hyphenated?
  simp only [hsize, hvalue]
  exact congrArg Except.ok (ofNat_value u)

end ModelSurface.Uuid
