import ModelSurface.Proofs.Schema.ValidNames

/-!
# Names told apart by their words

Snake case and camel case write the same words, so that names whose snake cases differ have
different camel cases; but a word that begins with a digit has no capital to begin with in camel
case. So what camel case tells apart is snake case up to the underscores in front of digits. No
snake case ends in an underscore, since none of the words is empty.
-/

namespace ModelSurface

namespace Text

open Naming

variable {c : Char}

/-! ### Words -/

/-- What words of names consist of. -/
def isLetterOrDigit (c : Char) : Bool := isAsciiLetter c || c.isDigit

theorem isAlphanumeric_of_mem_alphanumericRuns {run text : List Char}
    (hrun : run ∈ alphanumericRuns text) (h : c ∈ run) : isAlphanumeric c := by
  induction text generalizing run with
  | nil =>
      rw [List.mem_singleton.mp hrun] at h
      cases h
  | cons first rest ih =>
      unfold alphanumericRuns at hrun
      split at hrun
      · rw [List.mem_singleton.mp hrun] at h
        cases h
      · rename_i found others hfound
        rw [hfound] at ih
        split at hrun
        · rename_i halpha
          rcases List.mem_cons.mp hrun with rfl | hother
          · rcases List.mem_cons.mp h with rfl | hmem
            · exact halpha
            · exact ih List.mem_cons_self hmem
          · exact ih (List.mem_cons_of_mem _ hother) h
        · rcases List.mem_cons.mp hrun with rfl | hother
          · cases h
          · exact ih hother h

/-- No part is empty: only behind a capital is a run cut in front of the character at hand, and then
there is a word so far. -/
theorem ne_nil_of_mem_splitRun {word : WordCase} {current run part : List Char}
    (hcurrent : current = [] → word ≠ .upper) (h : part ∈ splitRun word current run) :
    part ≠ [] := by
  fun_induction splitRun word current run with
  | case1 => cases h
  | case2 word current last =>
      rw [List.mem_singleton.mp h]
      exact mt List.reverse_eq_nil_iff.mp (List.cons_ne_nil _ _)
  | case3 word current first next rest after _ ih =>
      rcases List.mem_cons.mp h with rfl | hother
      · exact mt List.reverse_eq_nil_iff.mp (List.cons_ne_nil _ _)
      · exact ih (fun _ => by decide) hother
  | case4 word current first next rest after _ hupper ih =>
      rcases List.mem_cons.mp h with rfl | hother
      · exact mt List.reverse_eq_nil_iff.mp fun heq => hcurrent heq hupper.1
      · exact ih (fun heq => absurd heq (List.cons_ne_nil _ _)) hother
  | case5 word current first next rest after _ _ ih =>
      exact ih (fun heq => absurd heq (List.cons_ne_nil _ _)) h

theorem word_of_valid {name : String} (h : isValid name) {word : List Char}
    (hword : word ∈ words name.toList) : word ≠ [] ∧ ∀ c ∈ word, isLetterOrDigit c := by
  obtain ⟨run, hrun, hpart⟩ := List.mem_flatMap.mp hword
  refine ⟨ne_nil_of_mem_splitRun (fun _ => by decide) hpart, fun c hc => ?_⟩
  have halpha := isAlphanumeric_of_mem_alphanumericRuns hrun
    ((mem_of_mem_splitRun hpart hc).resolve_left List.not_mem_nil)
  have hplace := (isValid_iff.mp h).parts c (mem_of_mem_words hword hc)
  unfold isPart at hplace
  rcases Bool.or_eq_true_iff.mp hplace with hplain | hunderscore
  · exact hplain
  · rw [beq_iff_eq.mp hunderscore] at halpha
    exact absurd halpha (by decide +kernel)

/-! ### Letters of words -/

theorem of_letterOrDigit {P : Char → Prop}
    (hall : ∀ code < 123, isLetterOrDigit (Char.ofNat code) → P (Char.ofNat code))
    (h : isLetterOrDigit c) : P c :=
  of_codes (P := fun c => isLetterOrDigit c → P c) hall (Bool.or_eq_true_iff.mpr (.inl h)) h

theorem lowerChar_eq (h : isLetterOrDigit c) : lowerChar c = [c.toLower] :=
  of_letterOrDigit (P := fun c => lowerChar c = [c.toLower]) (by decide +kernel) h

theorem upperChar_eq (h : isLetterOrDigit c) : upperChar c = [c.toUpper] :=
  of_letterOrDigit (P := fun c => upperChar c = [c.toUpper]) (by decide +kernel) h

theorem toLower_plain (h : isLetterOrDigit c) : c.toLower ≠ '_' ∧ c.toLower.isUpper = false :=
  of_letterOrDigit (P := fun c => c.toLower ≠ '_' ∧ c.toLower.isUpper = false) (by decide +kernel) h

theorem lowerWord_eq_map {word : List Char} (h : ∀ c ∈ word, isLetterOrDigit c) :
    lowerWord word = word.map Char.toLower := by
  have hsigma : 'Σ' ∉ word := fun hmem => absurd (h _ hmem) (by decide)
  rw [lowerWord_eq hsigma, List.map_eq_flatMap]
  exact List.flatMap_congr fun c hc => lowerChar_eq (h c hc)

theorem underscore_notMem_lowerWord {word : List Char} (h : ∀ c ∈ word, isLetterOrDigit c) :
    '_' ∉ lowerWord word := by
  rw [lowerWord_eq_map h]
  intro hmem
  obtain ⟨c, hc, heq⟩ := List.mem_map.mp hmem
  exact (toLower_plain (h c hc)).1 heq

/-! ### Underscores -/

theorem cons_intercalate {separator : Char} {parts : List (List Char)} (h : parts ≠ []) :
    separator :: [separator].intercalate parts = parts.flatMap (separator :: ·) := by
  induction parts with
  | nil => exact absurd rfl h
  | cons first rest ih =>
      cases rest with
      | nil => simp [List.intercalate]
      | cons second others =>
          rw [List.flatMap_cons, ← ih (List.cons_ne_nil _ _), List.intercalate_cons_cons]
          simp

/-- Snake case, with an underscore in front of the first word too. -/
theorem cons_snakeCase {name : String} (h : isValid name) :
    '_' :: (snakeCase name).toList =
      (words name.toList).flatMap fun word => '_' :: lowerWord word := by
  obtain ⟨first, rest, hwords, -⟩ := words_of_spelled (isValid_iff.mp h)
  rw [snakeCase, String.toList_ofList, cons_intercalate (by simp [hwords]), List.flatMap_map]

theorem getLast?_snakeCase {name : String} (h : isValid name) :
    (snakeCase name).toList.getLast? ≠ some '_' := by
  obtain ⟨first, rest, hwords, -⟩ := words_of_spelled (isValid_iff.mp h)
  obtain ⟨before, last, hlast⟩ :=
    (List.eq_nil_or_concat' (words name.toList)).resolve_left (by simp [hwords])
  have hmem : last ∈ words name.toList := by simp [hlast]
  obtain ⟨hsome, hchars⟩ := word_of_valid h hmem
  have hlower : lowerWord last ≠ [] := by
    rw [lowerWord_eq_map hchars]
    exact mt List.map_eq_nil_iff.mp hsome
  intro hunderscore
  have hwhole : ('_' :: (snakeCase name).toList).getLast? = some '_' := by
    rw [List.getLast?_cons, hunderscore]
    rfl
  rw [cons_snakeCase h, hlast, List.flatMap_append, List.flatMap_singleton,
    List.append_cons, List.getLast?_append_of_ne_nil _ hlower] at hwhole
  exact underscore_notMem_lowerWord hchars (List.mem_of_getLast? hwhole)

/-! ### Camel case -/

/-- Leaves out the underscores in front of digits. -/
def joinDigits : List Char → List Char
  | [] => []
  | c :: rest =>
    if c = '_' ∧ rest.head?.any Char.isDigit then joinDigits rest else c :: joinDigits rest

/-- Puts an underscore and a small letter in the place of each capital. -/
def splitCapitals (text : List Char) : List Char :=
  text.flatMap fun c => if c.isUpper then ['_', c.toLower] else [c]

theorem joinDigits_append {word : List Char} (h : '_' ∉ word) (rest : List Char) :
    joinDigits (word ++ rest) = word ++ joinDigits rest := by
  induction word with
  | nil => rfl
  | cons c word ih =>
      obtain ⟨hc, hword⟩ := not_or.mp (mt List.mem_cons.mpr h)
      rw [List.cons_append, joinDigits, if_neg fun hdigit => hc hdigit.1.symm, ih hword]
      rfl

theorem splitCapitals_map_toLower {word : List Char} (h : ∀ c ∈ word, isLetterOrDigit c) :
    splitCapitals (word.map Char.toLower) = word.map Char.toLower := by
  unfold splitCapitals
  rw [List.flatMap_map, List.map_eq_flatMap]
  exact List.flatMap_congr fun c hc => if_neg (by simp [(toLower_plain (h c hc)).2])

/-- A letter that is made a capital is split off, and a digit is not. -/
theorem splitCapitals_toUpper (h : isLetterOrDigit c) :
    splitCapitals [c.toUpper] = if c.toLower.isDigit then [c.toLower] else ['_', c.toLower] :=
  of_letterOrDigit (P := fun c => splitCapitals [c.toUpper] =
    if c.toLower.isDigit then [c.toLower] else ['_', c.toLower]) (by decide +kernel) h

/-- An underscore in front of a word is kept where camel case writes a capital. -/
theorem joinDigits_lowerWord {word : List Char} (hsome : word ≠ [])
    (h : ∀ c ∈ word, isLetterOrDigit c) (rest : List Char) :
    joinDigits ('_' :: (lowerWord word ++ rest)) =
      splitCapitals (capitalWord word) ++ joinDigits rest := by
  have hjoin := joinDigits_append (underscore_notMem_lowerWord h) rest
  obtain ⟨c, others, rfl⟩ := List.exists_cons_of_ne_nil hsome
  obtain ⟨hc, hothers⟩ := List.forall_mem_cons.mp h
  have hsplit : splitCapitals (capitalWord (c :: others)) =
      splitCapitals [c.toUpper] ++ others.map Char.toLower := by
    rw [← splitCapitals_map_toLower hothers, capitalWord, upperChar_eq hc, lowerWord_eq_map hothers,
      ← splitCapitals_map_toLower hothers]
    exact List.flatMap_append
  rw [lowerWord_eq_map h] at hjoin ⊢
  rw [hsplit, splitCapitals_toUpper hc, joinDigits, hjoin]
  by_cases hdigit : c.toLower.isDigit <;> simp [hdigit]

/-- Camel case with its capitals split off is snake case without underscores in front of digits. -/
theorem splitCapitals_capitalCase {name : String} (h : isValid name) :
    splitCapitals (capitalCase name).toList = '_' :: joinDigits (snakeCase name).toList := by
  have hwords : ∀ parts : List (List Char), (∀ word ∈ parts, word ∈ words name.toList) →
      joinDigits (parts.flatMap fun word => '_' :: lowerWord word) =
        splitCapitals (parts.flatMap capitalWord) := by
    intro parts hparts
    induction parts with
    | nil => rfl
    | cons word rest ih =>
        obtain ⟨hword, hrest⟩ := List.forall_mem_cons.mp hparts
        obtain ⟨hsome, hchars⟩ := word_of_valid h hword
        rw [List.flatMap_cons, List.flatMap_cons, List.cons_append,
          joinDigits_lowerWord hsome hchars, ih hrest]
        exact List.flatMap_append.symm
  -- a name begins with a letter, so that the first of the underscores is kept
  obtain ⟨c, hc, hletter⟩ := (isValid_iff.mp (isValid_snakeCase h)).first
  have hdigit : ¬ (snakeCase name).toList.head?.any Char.isDigit := by
    rw [hc]
    intro hdigit
    have hcodes := code_of_letter hletter
    have hdigits := code_of_digit hdigit
    omega
  rw [capitalCase, String.toList_ofList, ← hwords _ fun _ => id, ← cons_snakeCase h, joinDigits,
    if_neg fun hboth => hdigit hboth.2]

theorem letterOrDigit_of_mem_capitalCase {name : String} (h : isValid name)
    (hc : c ∈ (capitalCase name).toList) : isLetterOrDigit c := by
  have hcases : ∀ {d : Char}, isLetterOrDigit d →
      isLetterOrDigit d.toUpper ∧ isLetterOrDigit d.toLower := fun hd =>
    of_letterOrDigit (P := fun d => isLetterOrDigit d.toUpper ∧ isLetterOrDigit d.toLower)
      (by decide +kernel) hd
  rw [capitalCase, String.toList_ofList] at hc
  obtain ⟨word, hword, hmem⟩ := List.mem_flatMap.mp hc
  obtain ⟨hsome, hchars⟩ := word_of_valid h hword
  obtain ⟨first, rest, rfl⟩ := List.exists_cons_of_ne_nil hsome
  obtain ⟨hfirst, hrest⟩ := List.forall_mem_cons.mp hchars
  rw [capitalWord, upperChar_eq hfirst, lowerWord_eq_map hrest] at hmem
  rcases List.mem_cons.mp hmem with rfl | hlower
  · exact (hcases hfirst).1
  · obtain ⟨d, hd, rfl⟩ := List.mem_map.mp hlower
    exact (hcases (hrest d hd)).2

/-- From where capitals were split off one sees what they were. -/
theorem splitCapitals_inj {text other : List Char} (htext : ∀ c ∈ text, isLetterOrDigit c)
    (hother : ∀ c ∈ other, isLetterOrDigit c) (h : splitCapitals text = splitCapitals other) :
    text = other := by
  have hupper : ∀ {c : Char}, isLetterOrDigit c → c ≠ '_' ∧ (c.isUpper → c.toLower.toUpper = c) :=
    fun hc => of_letterOrDigit (P := fun c => c ≠ '_' ∧ (c.isUpper → c.toLower.toUpper = c))
      (by decide +kernel) hc
  induction text generalizing other with
  | nil =>
      cases other with
      | nil => rfl
      | cons d others => by_cases hd : d.isUpper <;> simp [splitCapitals, hd] at h
  | cons c rest ih =>
      cases other with
      | nil => by_cases hc : c.isUpper <;> simp [splitCapitals, hc] at h
      | cons d others =>
          obtain ⟨hc_char, hrest⟩ := List.forall_mem_cons.mp htext
          obtain ⟨hd_char, hothers⟩ := List.forall_mem_cons.mp hother
          have hnext : splitCapitals rest = splitCapitals others → rest = others := ih hrest hothers
          unfold splitCapitals at h hnext
          rw [List.flatMap_cons, List.flatMap_cons] at h
          by_cases hc : c.isUpper <;> by_cases hd : d.isUpper
          · rw [if_pos hc, if_pos hd] at h
            obtain ⟨hlower, hsplit⟩ : c.toLower = d.toLower ∧ _ := by simpa using h
            rw [← (hupper hc_char).2 hc, ← (hupper hd_char).2 hd, hlower, hnext hsplit]
          · rw [if_pos hc, if_neg hd] at h
            exact absurd (List.cons.inj h).1.symm (hupper hd_char).1
          · rw [if_neg hc, if_pos hd] at h
            exact absurd (List.cons.inj h).1 (hupper hc_char).1
          · rw [if_neg hc, if_neg hd] at h
            obtain ⟨rfl, hsplit⟩ := List.cons.inj h
            rw [hnext hsplit]

/-- Two names have one camel case exactly if their snake cases are the same up to the underscores in
front of digits. -/
theorem capitalCase_eq_iff {name other : String} (h : isValid name) (hother : isValid other) :
    capitalCase name = capitalCase other ↔
      joinDigits (snakeCase name).toList = joinDigits (snakeCase other).toList := by
  constructor
  · intro hsame
    have hsplit := congrArg (fun text => splitCapitals text.toList) hsame
    simpa only [splitCapitals_capitalCase h, splitCapitals_capitalCase hother, List.cons.injEq,
      true_and] using hsplit
  · intro hsame
    refine String.toList_injective (splitCapitals_inj
      (fun _ => letterOrDigit_of_mem_capitalCase h)
      (fun _ => letterOrDigit_of_mem_capitalCase hother) ?_)
    rw [splitCapitals_capitalCase h, splitCapitals_capitalCase hother, hsame]

end Text

end ModelSurface
