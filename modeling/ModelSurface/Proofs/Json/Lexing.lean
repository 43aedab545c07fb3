import ModelSurface.Json.Basic
import ModelSurface.Proofs.Json.Numbers
import ModelSurface.Proofs.Json.Proper

/-!
# Reading the text of a value

The text of a proper value is read as the tokens of the value, whatever stands behind it. Every
character of a string is read back from what it is escaped as; a number ends in front of the comma
or bracket behind it.
-/

namespace ModelSurface.Json

/-! ### Strings -/

namespace Scan

variable {rest : List Char}

theorem hexValue?_hexDigit : ∀ n < 16, hexValue? (hexDigit n) = some n := by decide

theorem utf8Size_hexDigit : ∀ n < 16, (hexDigit n).utf8Size = 1 := by decide

theorem run_string {read : List Char} {c : Char} (hquote : c ≠ '"') (hslash : c ≠ '\\')
    (hcontrol : ¬ c.toNat < 0x20) (rest : List Char) :
    run (.string read) (c :: rest) = run (.string (c :: read)) rest := by
  rw [run, step, if_neg (by simpa using hquote), if_neg (by simpa using hslash), if_neg hcontrol]
  rfl

theorem step_unit {n : ℕ} (h : n < 16) (read : List Char) (octets value : ℕ) :
    step (.unit read none octets (some value)) (hexDigit n) =
      if octets + 1 < 4 then (.unit read none (octets + 1) (some (value * 16 + n)), [])
      else closeUnit read none (some (value * 16 + n)) := by
  unfold step
  simp only [hexValue?_hexDigit n h, utf8Size_hexDigit n h]

/-- A control character, by the digits of its code. -/
theorem run_control {read : List Char} {high low : ℕ} (hhigh : high < 16) (hlow : low < 16)
    (hcode : high * 16 + low < 0x20) (rest : List Char) :
    run (.string read)
        ('\\' :: 'u' :: '0' :: '0' :: hexDigit high :: hexDigit low :: rest) =
      run (.string (Char.ofNat (high * 16 + low) :: read)) rest := by
  have hstart : ∀ tail, run (.string read) ('\\' :: 'u' :: '0' :: '0' :: tail) =
      run (.unit read none 2 (some 0)) tail := fun tail => rfl
  have hclose : closeUnit read none (some (high * 16 + low)) =
      (.string (Char.ofNat (high * 16 + low) :: read), []) := by
    unfold closeUnit
    dsimp only
    rw [if_neg (by omega), if_neg (by omega)]
  rw [hstart, run, step_unit hhigh, if_pos (by omega), Nat.zero_mul, Nat.zero_add]
  change run (.unit read none 3 (some high)) _ = _
  rw [run, step_unit hlow, if_neg (by omega), hclose]
  rfl

/-- Every character is read back from what it is escaped as. -/
theorem run_escapeChar (read : List Char) (c : Char) (rest : List Char) :
    run (.string read) (escapeChar c ++ rest) = run (.string (c :: read)) rest := by
  unfold escapeChar
  split
  · rfl
  · rfl
  · rfl
  · rfl
  · rfl
  · rfl
  · rfl
  · rename_i hquote hslash _ _ _ _ _
    split
    · rename_i hcontrol
      have hcode : c.toNat / 16 * 16 + c.toNat % 16 = c.toNat := by omega
      refine (run_control (by omega) (by omega) (by omega) rest).trans ?_
      rw [hcode, Char.ofNat_toNat]
    · rename_i hcontrol
      exact run_string hquote hslash hcontrol rest

theorem run_escaped (read text rest : List Char) :
    run (.string read) (text.flatMap escapeChar ++ '"' :: rest) =
      .str (String.ofList (read.reverse ++ text)) :: run .ready rest := by
  induction text generalizing read with
  | nil =>
      rw [List.append_nil]
      rfl
  | cons c text ih =>
      rw [List.flatMap_cons, List.append_assoc, run_escapeChar, ih, List.reverse_cons,
        List.append_assoc]
      rfl

theorem run_quoteChars (s : String) (rest : List Char) :
    run .ready (quoteChars s ++ rest) = .str s :: run .ready rest := by
  have hstart : ∀ tail, run .ready ('"' :: tail) = run (.string []) tail := fun tail => rfl
  unfold quoteChars
  rw [List.append_assoc, List.cons_append, hstart, List.singleton_append, run_escaped]
  simp

end Scan

/-! ### Values -/

mutual

/-- The tokens of a value, in the order of its text. -/
def lexemes : Json → List Token
  | .null => [.null]
  | .bool b => [.bool b]
  | .num n => [.num n]
  | .str s => [.str s]
  | .arr [] => [.openArr, .closeArr]
  | .arr (item :: items) => .openArr :: item.lexemes ++ itemsLexemes items
  | .obj [] => [.openObj, .closeObj]
  | .obj ((name, value) :: members) =>
    .openObj :: .str name :: .colon :: value.lexemes ++ membersLexemes members

def itemsLexemes : List Json → List Token
  | [] => [.closeArr]
  | item :: items => .comma :: item.lexemes ++ itemsLexemes items

def membersLexemes : List (String × Json) → List Token
  | [] => [.closeObj]
  | (name, value) :: members =>
    .comma :: .str name :: .colon :: value.lexemes ++ membersLexemes members

end

theorem behind_itemsChars (items : List Json) (rest : List Char) :
    Behind (itemsChars items ++ rest) := by
  intro c hc
  cases items with
  | nil => exact .inr (.inl (Option.some.inj hc).symm)
  | cons item items => exact .inl (Option.some.inj hc).symm

theorem behind_membersChars (members : List (String × Json)) (rest : List Char) :
    Behind (membersChars members ++ rest) := by
  intro c hc
  cases members with
  | nil => exact .inr (.inr (Option.some.inj hc).symm)
  | cons member members => exact .inl (Option.some.inj hc).symm

open Scan

mutual

theorem run_chars : ∀ (json : Json), json.isProper → ∀ rest, Behind rest →
    run .ready (json.chars ++ rest) = json.lexemes ++ run .ready rest
  | .null, _, rest, _ => rfl
  | .bool true, _, rest, _ => rfl
  | .bool false, _, rest, _ => rfl
  | .num (.int i), h, rest, hrest => by
    rw [isProper, decide_eq_true_eq] at h
    exact run_int h.1 h.2 hrest
  | .num (.float x), _, rest, hrest => run_float hrest
  | .str s, _, rest, _ => run_quoteChars s rest
  | .arr [], _, rest, _ => rfl
  | .arr (item :: items), h, rest, _ => by
    obtain ⟨hitem, hitems⟩ := List.forall_mem_cons.mp (isProper_arr.mp h)
    have hopen : ∀ tail, run .ready ('[' :: tail) = .openArr :: run .ready tail := fun tail => rfl
    rw [chars, lexemes, List.cons_append, List.cons_append, hopen, List.append_assoc,
      run_chars item hitem _ (behind_itemsChars items rest), run_itemsChars items hitems rest,
      List.cons_append, List.cons_append, List.append_assoc]
  | .obj [], _, rest, _ => rfl
  | .obj ((name, value) :: members), h, rest, _ => by
    obtain ⟨hvalue, hmembers⟩ := List.forall_mem_cons.mp (isProper_obj.mp h).2
    have hopen : ∀ tail, run .ready ('\x7b' :: tail) = .openObj :: run .ready tail :=
      fun tail => rfl
    have hcolon : ∀ tail, run .ready (':' :: tail) = .colon :: run .ready tail := fun tail => rfl
    rw [chars, lexemes, List.cons_append, List.cons_append, List.cons_append, hopen,
      List.append_assoc, List.append_assoc, run_quoteChars, List.cons_append, hcolon,
      run_chars value hvalue _ (behind_membersChars members rest),
      run_membersChars members hmembers rest]
    simp only [List.cons_append, List.append_assoc]

theorem run_itemsChars : ∀ (items : List Json), (∀ item ∈ items, item.isProper) → ∀ rest,
    run .ready (itemsChars items ++ rest) = itemsLexemes items ++ run .ready rest
  | [], _, rest => rfl
  | item :: items, h, rest => by
    obtain ⟨hitem, hitems⟩ := List.forall_mem_cons.mp h
    have hcomma : ∀ tail, run .ready (',' :: tail) = .comma :: run .ready tail := fun tail => rfl
    rw [itemsChars, itemsLexemes, List.cons_append, List.cons_append, hcomma, List.append_assoc,
      run_chars item hitem _ (behind_itemsChars items rest), run_itemsChars items hitems rest,
      List.cons_append, List.cons_append, List.append_assoc]

theorem run_membersChars : ∀ (members : List (String × Json)),
    (∀ member ∈ members, member.2.isProper) → ∀ rest,
    run .ready (membersChars members ++ rest) = membersLexemes members ++ run .ready rest
  | [], _, rest => rfl
  | (name, value) :: members, h, rest => by
    obtain ⟨hvalue, hmembers⟩ := List.forall_mem_cons.mp h
    have hcomma : ∀ tail, run .ready (',' :: tail) = .comma :: run .ready tail := fun tail => rfl
    have hcolon : ∀ tail, run .ready (':' :: tail) = .colon :: run .ready tail := fun tail => rfl
    rw [membersChars, membersLexemes, List.cons_append, List.cons_append, List.cons_append, hcomma,
      List.append_assoc, List.append_assoc, run_quoteChars, List.cons_append, hcolon,
      run_chars value hvalue _ (behind_membersChars members rest),
      run_membersChars members hmembers rest]
    simp only [List.cons_append, List.append_assoc]

end

/-- The tokens of the text of a value. -/
theorem tokens_text {json : Json} (h : json.isProper) : tokens json.text = json.lexemes := by
  unfold tokens text
  rw [String.toList_ofList, ← List.append_nil json.chars, run_chars json h [] behind_nil]
  exact List.append_nil _

end ModelSurface.Json
