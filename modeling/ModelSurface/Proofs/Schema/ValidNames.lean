import Mathlib.Data.List.Basic
import ModelSurface.Model.Members

/-!
# Names made of valid names

Snake case, plurals and expanded templates of valid names are valid names again. Snake case begins
with the lower case of the first letter, since no word is cut off in front of it, and a template
that is valid with one name put in for the placeholder is valid with any other one.
-/

namespace ModelSurface

namespace Naming

/-- What may stand in a name behind its first letter. -/
def isPart (c : Char) : Bool := isAsciiLetter c || c.isDigit || c == '_'

/-- A letter, then letters, digits and underscores. -/
structure Spelled (text : List Char) : Prop where
  first : ∃ c, text.head? = some c ∧ isAsciiLetter c
  parts : ∀ c ∈ text, isPart c

theorem code_of_letter {c : Char} (h : isAsciiLetter c) : 65 ≤ c.toNat ∧ c.toNat ≤ 122 := by
  have hcodes : ('a'.val.toNat ≤ c.toNat ∧ c.toNat ≤ 'z'.val.toNat) ∨
      ('A'.val.toNat ≤ c.toNat ∧ c.toNat ≤ 'Z'.val.toNat) := by
    unfold isAsciiLetter at h
    simp only [Bool.or_eq_true, Bool.and_eq_true, decide_eq_true_eq, Char.le_def,
      UInt32.le_iff_toNat_le] at h
    exact h
  have hz : 'z'.val.toNat = 122 := rfl
  have hA : 'A'.val.toNat = 65 := rfl
  have ha : 'a'.val.toNat = 97 := rfl
  have hZ : 'Z'.val.toNat = 90 := rfl
  omega

theorem code_of_digit {c : Char} (h : c.isDigit) : 48 ≤ c.toNat ∧ c.toNat ≤ 57 := by
  unfold Char.isDigit at h
  simp only [Bool.and_eq_true, decide_eq_true_eq, ge_iff_le, UInt32.le_iff_toNat_le] at h
  exact h

theorem isPart_of_letter {c : Char} (h : isAsciiLetter c) : isPart c := by
  simp [isPart, h]

theorem isValid_iff {name : String} : isValid name ↔ Spelled name.toList := by
  unfold isValid
  cases name.toList with
  | nil => simpa using fun h : Spelled [] => by simpa using h.first
  | cons first rest =>
      simp only [Bool.and_eq_true]
      constructor
      · rintro ⟨hfirst, hrest⟩
        refine ⟨⟨first, rfl, hfirst⟩, List.forall_mem_cons.mpr ⟨isPart_of_letter hfirst, ?_⟩⟩
        exact List.all_eq_true.mp hrest
      · rintro ⟨⟨c, hc, hletter⟩, hparts⟩
        obtain rfl := Option.some.inj hc
        exact ⟨hletter, List.all_eq_true.mpr (List.forall_mem_cons.mp hparts).2⟩

theorem code_of_part {c : Char} (h : isPart c) : c.toNat < 123 := by
  unfold isPart at h
  simp only [Bool.or_eq_true, beq_iff_eq] at h
  rcases h with (hletter | hdigit) | rfl
  · have hcode := code_of_letter hletter
    omega
  · have hcode := code_of_digit hdigit
    omega
  · decide

theorem Spelled.append {text ending : List Char} (h : Spelled text)
    (hending : ∀ c ∈ ending, isPart c) : Spelled (text ++ ending) where
  first := by
    obtain ⟨c, hc, hletter⟩ := h.first
    exact ⟨c, by simp [hc], hletter⟩
  parts c hc := (List.mem_append.mp hc).elim (h.parts c) (hending c)

end Naming

namespace Text

open Naming

variable {c : Char}

/-! ### Words -/

theorem mem_of_mem_alphanumericRuns {run text : List Char} (hrun : run ∈ alphanumericRuns text)
    (h : c ∈ run) : c ∈ text := by
  induction text generalizing run with
  | nil =>
      rw [List.mem_singleton.mp hrun] at h
      cases h
  | cons first rest ih =>
      unfold alphanumericRuns at hrun
      split at hrun
      · rw [List.mem_singleton.mp hrun] at h
        cases h
      · rename_i found others hfound
        rw [hfound] at ih
        have hfurther : ∀ other ∈ found :: others, c ∈ other → c ∈ first :: rest :=
          fun other hother hmem => List.mem_cons_of_mem _ (ih hother hmem)
        split at hrun
        · rcases List.mem_cons.mp hrun with rfl | hother
          · rcases List.mem_cons.mp h with rfl | hmem
            · exact List.mem_cons_self
            · exact hfurther found List.mem_cons_self hmem
          · exact hfurther run (List.mem_cons_of_mem _ hother) h
        · rcases List.mem_cons.mp hrun with rfl | hother
          · cases h
          · exact hfurther run hother h

theorem mem_of_mem_splitRun {word : WordCase} {current run part : List Char}
    (hpart : part ∈ splitRun word current run) (h : c ∈ part) : c ∈ current ∨ c ∈ run := by
  fun_induction splitRun word current run with
  | case1 => cases hpart
  | case2 word current last =>
      rw [List.mem_singleton.mp hpart, List.mem_reverse] at h
      rcases List.mem_cons.mp h with rfl | hmem
      · exact .inr List.mem_cons_self
      · exact .inl hmem
  | case3 word current first next rest after _ ih =>
      rcases List.mem_cons.mp hpart with rfl | hother
      · rcases List.mem_cons.mp (List.mem_reverse.mp h) with rfl | hmem
        · exact .inr List.mem_cons_self
        · exact .inl hmem
      · exact .inr (List.mem_cons_of_mem _ ((ih hother).resolve_left List.not_mem_nil))
  | case4 word current first next rest after _ _ ih =>
      rcases List.mem_cons.mp hpart with rfl | hother
      · exact .inl (List.mem_reverse.mp h)
      · rcases ih hother with hfirst | hmem
        · rw [List.mem_singleton.mp hfirst]
          exact .inr List.mem_cons_self
        · exact .inr (List.mem_cons_of_mem _ hmem)
  | case5 word current first next rest after _ _ ih =>
      rcases ih hpart with hcurrent | hmem
      · rcases List.mem_cons.mp hcurrent with rfl | hold
        · exact .inr List.mem_cons_self
        · exact .inl hold
      · exact .inr (List.mem_cons_of_mem _ hmem)

theorem mem_of_mem_words {text word : List Char} (hword : word ∈ words text) (h : c ∈ word) :
    c ∈ text := by
  obtain ⟨run, hrun, hpart⟩ := List.mem_flatMap.mp hword
  exact mem_of_mem_alphanumericRuns hrun
    ((mem_of_mem_splitRun hpart h).resolve_left List.not_mem_nil)

theorem mem_of_mem_intercalate {separator : List Char} {parts : List (List Char)}
    (h : c ∈ separator.intercalate parts) : c ∈ separator ∨ ∃ part ∈ parts, c ∈ part := by
  unfold List.intercalate at h
  fun_induction List.intersperse separator parts with
  | case1 => cases h
  | case2 part =>
      rw [List.flatten_singleton] at h
      exact .inr ⟨part, List.mem_cons_self, h⟩
  | case3 part next rest ih =>
      simp only [List.flatten_cons, List.mem_append] at h
      rcases h with hpart | hseparator | hrest
      · exact .inr ⟨part, List.mem_cons_self, hpart⟩
      · exact .inl hseparator
      · exact (ih hrest).imp_right fun ⟨other, hmem, hc⟩ => ⟨other, List.mem_cons_of_mem _ hmem, hc⟩

/-! ### Lower case -/

/-- What holds for all codes up to that of the last small letter holds for what names consist of. -/
theorem of_codes {P : Char → Prop} (hall : ∀ code < 123, P (Char.ofNat code)) (h : isPart c) :
    P c := by
  have hcode := hall c.toNat (code_of_part h)
  rwa [Char.ofNat_toNat] at hcode

theorem lowerChar_of_part (h : isPart c) :
    lowerChar c ≠ [] ∧ c ≠ 'Σ' ∧ ∀ d ∈ lowerChar c, isPart d := by
  have hall : ∀ code < 123, isPart (Char.ofNat code) → lowerChar (Char.ofNat code) ≠ [] ∧
      Char.ofNat code ≠ 'Σ' ∧ (lowerChar (Char.ofNat code)).all isPart := by
    decide +kernel
  obtain ⟨hsome, hsigma, hparts⟩ :=
    of_codes (P := fun c => isPart c → lowerChar c ≠ [] ∧ c ≠ 'Σ' ∧ (lowerChar c).all isPart)
      hall h h
  exact ⟨hsome, hsigma, List.all_eq_true.mp hparts⟩

theorem lowerChar_of_letter (h : isAsciiLetter c) :
    isAlphanumeric c ∧ ∀ d ∈ lowerChar c, isAsciiLetter d := by
  have hall : ∀ code < 123, isAsciiLetter (Char.ofNat code) →
      isAlphanumeric (Char.ofNat code) ∧ (lowerChar (Char.ofNat code)).all isAsciiLetter := by
    decide +kernel
  obtain ⟨halpha, hletters⟩ :=
    of_codes (P := fun c => isAsciiLetter c → isAlphanumeric c ∧ (lowerChar c).all isAsciiLetter)
      hall (isPart_of_letter h) h
  exact ⟨halpha, List.all_eq_true.mp hletters⟩

/-- Without a capital sigma each character is lowered on its own. -/
theorem lowerWord_eq {word : List Char} (h : 'Σ' ∉ word) :
    lowerWord word = word.flatMap lowerChar := by
  fun_induction lowerWord word with
  | case1 => rfl
  | case2 => exact absurd List.mem_cons_self h
  | case3 c _ => simp
  | case4 c rest _ ih => rw [List.flatMap_cons, ih fun hmem => h (List.mem_cons_of_mem _ hmem)]

theorem parts_lowerWord {word : List Char} (h : ∀ c ∈ word, isPart c) :
    ∀ c ∈ lowerWord word, isPart c := by
  intro c hc
  rw [lowerWord_eq fun hmem => (lowerChar_of_part (h _ hmem)).2.1 rfl] at hc
  obtain ⟨d, hd, hlower⟩ := List.mem_flatMap.mp hc
  exact (lowerChar_of_part (h d hd)).2.2 c hlower

theorem spelled_lowerWord {word : List Char} (h : Spelled word) : Spelled (lowerWord word) := by
  refine ⟨?_, parts_lowerWord h.parts⟩
  obtain ⟨c, hc, hletter⟩ := h.first
  obtain ⟨rest, rfl⟩ : ∃ rest, word = c :: rest := by
    cases word with
    | nil => cases hc
    | cons first rest => exact ⟨rest, by rw [Option.some.inj hc]⟩
  have hlower := (lowerChar_of_letter hletter).2
  have hsome := (lowerChar_of_part (isPart_of_letter hletter)).1
  rw [lowerWord_eq fun hmem => (lowerChar_of_part (h.parts _ hmem)).2.1 rfl, List.flatMap_cons]
  obtain ⟨d, others, hd⟩ := List.exists_cons_of_ne_nil hsome
  rw [hd] at hlower ⊢
  exact ⟨d, rfl, hlower d List.mem_cons_self⟩

/-! ### The first word -/

theorem alphanumericRuns_cons (h : isAlphanumeric c) (rest : List Char) :
    ∃ run runs, alphanumericRuns (c :: rest) = (c :: run) :: runs := by
  have hsome : alphanumericRuns rest ≠ [] := by
    fun_cases alphanumericRuns rest <;> simp
  obtain ⟨run, runs, hruns⟩ := List.exists_cons_of_ne_nil hsome
  exact ⟨run, runs, by simp [alphanumericRuns, hruns, h]⟩

/-- The first word of a run begins where the run does: behind a capital there is a word so far. -/
theorem splitRun_first {word : WordCase} {current run : List Char}
    (hcurrent : current = [] → word ≠ .upper) (hrun : run ≠ []) :
    ∃ part parts, splitRun word current run = part :: parts ∧
      part.head? = (current.reverse ++ run).head? := by
  fun_induction splitRun word current run with
  | case1 => exact absurd rfl hrun
  | case2 word current c => exact ⟨_, _, rfl, by simp⟩
  | case3 word current c next rest after => exact ⟨_, _, rfl, by simp [List.head?_append]⟩
  | case4 word current c next rest after _ hupper =>
      have hsome : current.reverse ≠ [] :=
        mt List.reverse_eq_nil_iff.mp fun heq => hcurrent heq hupper.1
      refine ⟨_, _, rfl, ?_⟩
      rw [List.head?_append_of_ne_nil _ hsome]
  | case5 word current c next rest after _ _ ih =>
      obtain ⟨part, parts, heq, hhead⟩ := ih (fun hnil => by cases hnil) (List.cons_ne_nil _ _)
      exact ⟨part, parts, heq, by simp [hhead]⟩

theorem words_of_spelled {text : List Char} (h : Spelled text) :
    ∃ first rest, words text = first :: rest ∧ Spelled first ∧
      ∀ word ∈ rest, ∀ c ∈ word, isPart c := by
  obtain ⟨c, hc, hletter⟩ := h.first
  obtain ⟨tail, rfl⟩ : ∃ tail, text = c :: tail := by
    cases text with
    | nil => cases hc
    | cons first tail => exact ⟨tail, by rw [Option.some.inj hc]⟩
  have halpha := (lowerChar_of_letter hletter).1
  obtain ⟨run, runs, hruns⟩ := alphanumericRuns_cons halpha tail
  obtain ⟨part, parts, hparts, hhead⟩ : ∃ part parts,
      splitRun .none [] (c :: run) = part :: parts ∧ part.head? = some c :=
    splitRun_first (fun _ => by decide) (List.cons_ne_nil _ _)
  have hwords : words (c :: tail) = part :: (parts ++ runs.flatMap (splitRun .none [])) := by
    rw [words, hruns, List.flatMap_cons, hparts, List.cons_append]
  have hall : ∀ word ∈ words (c :: tail), ∀ d ∈ word, isPart d :=
    fun word hword d hd => h.parts d (mem_of_mem_words hword hd)
  rw [hwords] at hall
  obtain ⟨hfirst, hrest⟩ := List.forall_mem_cons.mp hall
  exact ⟨part, _, hwords, ⟨⟨c, hhead, hletter⟩, hfirst⟩, hrest⟩

theorem head?_intercalate {separator first : List Char} (rest : List (List Char))
    (h : first ≠ []) : (separator.intercalate (first :: rest)).head? = first.head? := by
  cases rest with
  | nil => simp [List.intercalate]
  | cons second others =>
      rw [List.intercalate, List.intersperse_cons_cons, List.flatten_cons,
        List.head?_append_of_ne_nil _ h]

/-! ### Templates -/

variable {pattern replacement : List Char}

theorem mem_replaceFrom_other (other : List Char) {skip : Nat} {text : List Char}
    (h : c ∈ replaceFrom pattern replacement skip text) :
    c ∈ replacement ∨ c ∈ replaceFrom pattern other skip text := by
  fun_induction replaceFrom pattern replacement skip text with
  | case1 => cases h
  | case2 first rest skip ih => exact ih h
  | case3 first rest hprefix ih =>
      rw [replaceFrom, if_pos hprefix, List.mem_append]
      rcases List.mem_append.mp h with hnew | hrest
      · exact .inl hnew
      · exact (ih hrest).imp_right .inr
  | case4 first rest hprefix ih =>
      rw [replaceFrom, if_neg hprefix, List.mem_cons]
      rcases List.mem_cons.mp h with rfl | hrest
      · exact .inr (.inl rfl)
      · exact (ih hrest).imp_right .inr

/-- A text with replacements begins with one, or with what it begins with whatever is put in. -/
theorem head?_replaceFrom (h : replacement ≠ []) (other : List Char) (skip : Nat)
    (text : List Char) :
    (replaceFrom pattern replacement skip text).head? = replacement.head? ∨
      (replaceFrom pattern replacement skip text).head? =
        (replaceFrom pattern other skip text).head? := by
  fun_induction replaceFrom pattern replacement skip text with
  | case1 => exact .inr rfl
  | case2 first rest skip ih => exact ih
  | case3 first rest hprefix ih => exact .inl (List.head?_append_of_ne_nil _ h)
  | case4 first rest hprefix ih =>
      refine .inr ?_
      rw [replaceFrom, if_neg hprefix]
      rfl

theorem spelled_replaceAll {other text : List Char} (h : Spelled (replaceAll pattern other text))
    (hreplacement : Spelled replacement) : Spelled (replaceAll pattern replacement text) := by
  have hsome : replacement ≠ [] := by
    rintro rfl
    obtain ⟨c, hc, -⟩ := hreplacement.first
    cases hc
  refine ⟨?_, fun c hc => ?_⟩
  · rcases @head?_replaceFrom pattern _ hsome other 0 text with hhead | hhead
    · rw [replaceAll, hhead]
      exact hreplacement.first
    · rw [replaceAll, hhead]
      exact h.first
  · exact (mem_replaceFrom_other other hc).elim (hreplacement.parts c) (h.parts c)

end Text

/-! ### Names -/

namespace Naming

variable {name : String}

theorem isValid_snakeCase (h : isValid name) : isValid (Text.snakeCase name) := by
  obtain ⟨first, rest, hwords, hfirst, hrest⟩ := Text.words_of_spelled (isValid_iff.mp h)
  have hlower := Text.spelled_lowerWord hfirst
  have hsome : Text.lowerWord first ≠ [] := by
    intro hnil
    obtain ⟨c, hc, -⟩ := hlower.first
    rw [hnil] at hc
    cases hc
  rw [isValid_iff, Text.snakeCase, String.toList_ofList, hwords, List.map_cons]
  refine ⟨?_, fun c hc => ?_⟩
  · rw [Text.head?_intercalate _ hsome]
    exact hlower.first
  · rcases Text.mem_of_mem_intercalate hc with hseparator | ⟨part, hpart, hmem⟩
    · rw [List.mem_singleton.mp hseparator]
      decide
    · rcases List.mem_cons.mp hpart with rfl | hother
      · exact hlower.parts c hmem
      · obtain ⟨word, hword, rfl⟩ := List.mem_map.mp hother
        exact Text.parts_lowerWord (hrest word hword) c hmem

theorem isValid_append {ending : String} (h : isValid name)
    (hending : ending.toList.all isPart) : isValid (name ++ ending) := by
  rw [isValid_iff, String.toList_append]
  exact (isValid_iff.mp h).append (List.all_eq_true.mp hending)

theorem isValid_plural (h : isValid name) : isValid (plural name) := by
  unfold plural
  dsimp only
  split
  · rename_i hempty
    rw [String.isEmpty_iff.mp hempty] at h
    cases h
  · split
    · exact isValid_append h (by decide)
    · split
      · split
        · exact isValid_append h (by decide)
        · -- without its last letter the word may be empty; then the ending begins the plural
          rw [isValid_iff, String.toList_append, String.toList_ofList]
          have hname := isValid_iff.mp h
          cases hcut : name.toList.dropLast with
          | nil => exact isValid_iff.mp (show isValid "ies" by decide)
          | cons first rest =>
              refine Spelled.append ⟨?_, ?_⟩ (List.all_eq_true.mp (by decide))
              · obtain ⟨c, hc, hletter⟩ := hname.first
                obtain ⟨tail, htail⟩ := List.dropLast_prefix name.toList
                rw [← htail, hcut] at hc
                exact ⟨c, hc, hletter⟩
              · rw [← hcut]
                exact fun c hc => hname.parts c (List.dropLast_subset _ hc)
      · exact isValid_append h (by decide)

end Naming

namespace RelationDef

/-- Whether the other side of a relation has a valid name in every model. -/
def Expands (relation : RelationDef) : Prop :=
  ∀ model, Naming.isValid model → Naming.isValid (relation.reverseName model)

/-- A template that one model can use can be used by all. -/
theorem isValid_expand {template model other : String}
    (h : Naming.isValid (expand template model)) (hother : Naming.isValid other) :
    Naming.isValid (expand template other) := by
  rw [Naming.isValid_iff, expand, String.toList_ofList] at h ⊢
  exact Text.spelled_replaceAll h (Naming.isValid_iff.mp (Naming.isValid_snakeCase hother))

theorem expands {relation : RelationDef} (model : String)
    (h : ∀ template, relation.relatedName = some template →
      Naming.isValid (expand template model)) : relation.Expands := by
  intro other hother
  have hsnake := Naming.isValid_snakeCase hother
  unfold reverseName
  split
  · rename_i template hrelated
    exact isValid_expand (h template hrelated) hother
  · exact hsnake
  · exact Naming.isValid_plural hsnake

end RelationDef

end ModelSurface
