import ModelSurface.Proofs.Filter.Meaning

/-!
# Texts compared without regard to case

An operator that passes over case compares the lower case of a text with that of the needle, and
each is taken for itself. A capital sigma has two lower cases, and which one it gets depends on what
surrounds it: in the text it has other surroundings than in the needle. All other characters are
lowered alike everywhere, so that sigmas alone decide whether what is found with case is found
without it.
-/

namespace ModelSurface

namespace Text

/-! ### Lower case between other characters -/

/-- A capital sigma ends a word: behind `before`, the last character first, and in front of
`after`. -/
def endsWord (before after : List Char) : Bool := startsCased before && !startsCased after

/-- The lower case of a character behind `before` and in front of `after`. -/
def lowerWithin (before after : List Char) (c : Char) : List Char :=
  if c = 'Σ' then if endsWord before after then ['ς'] else ['σ'] else lowerChar c

/-- The lower case of a text behind `before` and in front of `after`. -/
def lowercaseWithin (before after : List Char) : List Char → List Char
  | [] => []
  | c :: rest => lowerWithin before (rest ++ after) c ++ lowercaseWithin (c :: before) after rest

/-- The capital sigmas of a text that end a word when it stands for itself are those that end one
behind `before` and in front of `after`. -/
def SigmasKept (before after text : List Char) : Prop :=
  ∀ front back, text = front ++ 'Σ' :: back →
    endsWord (front.reverse ++ before) (back ++ after) = endsWord front.reverse back

variable {before after text : List Char} {c : Char}

/-- The lower case of a whole text, and of what is left of it, has nothing behind it. -/
theorem lowercaseWithin_nil (before text : List Char) :
    lowercaseWithin before [] text = lowercaseAfter before text := by
  induction text generalizing before with
  | nil => rfl
  | cons c rest ih =>
      rw [lowercaseWithin, lowercaseAfter, List.append_nil, ih]
      rfl

theorem lowercaseWithin_append (before after front back : List Char) :
    lowercaseWithin before after (front ++ back) =
      lowercaseWithin before (back ++ after) front ++
        lowercaseWithin (front.reverse ++ before) after back := by
  induction front generalizing before with
  | nil => rfl
  | cons c rest ih =>
      calc lowercaseWithin before after (c :: (rest ++ back))
          = lowerWithin before (rest ++ back ++ after) c ++
              lowercaseWithin (c :: before) after (rest ++ back) := rfl
        _ = lowercaseWithin before (back ++ after) (c :: rest) ++
              lowercaseWithin (rest.reverse ++ c :: before) after back := by
            rw [ih, lowercaseWithin, List.append_assoc, List.append_assoc]
        _ = _ := by rw [List.reverse_cons, List.append_assoc, List.singleton_append]

theorem lowercase_append (front back : List Char) :
    lowercase (front ++ back) =
      lowercaseWithin [] back front ++ lowercaseWithin front.reverse [] back := by
  rw [lowercase, ← lowercaseWithin_nil, lowercaseWithin_append, List.append_nil, List.append_nil]

theorem length_lowerWithin (before after : List Char) (c : Char) :
    (lowerWithin before after c).length = (lowerWithin [] [] c).length := by
  unfold lowerWithin
  split
  · split <;> split <;> simp
  · simp

theorem length_lowercaseWithin (before after text : List Char) :
    (lowercaseWithin before after text).length = (lowercase text).length := by
  rw [lowercase, ← lowercaseWithin_nil]
  suffices h : ∀ before' after', (lowercaseWithin before after text).length =
      (lowercaseWithin before' after' text).length from h [] []
  intro before' after'
  induction text generalizing before before' with
  | nil => rfl
  | cons c rest ih =>
      simp only [lowercaseWithin, List.length_append]
      rw [ih, length_lowerWithin, length_lowerWithin before']

theorem lowerWithin_eq_iff {before' after' : List Char} :
    lowerWithin before after c = lowerWithin before' after' c ↔
      (c = 'Σ' → endsWord before after = endsWord before' after') := by
  unfold lowerWithin
  by_cases hsigma : c = 'Σ'
  · cases endsWord before after <;> cases endsWord before' after' <;> simp [hsigma]
  · simp [hsigma]

/-- Two surroundings lower a text alike exactly when its sigmas end the same words in both. -/
theorem lowercaseWithin_eq_iff {before' after' : List Char} :
    lowercaseWithin before after text = lowercaseWithin before' after' text ↔
      ∀ front back, text = front ++ 'Σ' :: back →
        endsWord (front.reverse ++ before) (back ++ after) =
          endsWord (front.reverse ++ before') (back ++ after') := by
  induction text generalizing before before' with
  | nil => simp [lowercaseWithin]
  | cons c rest ih =>
      have hlength : (lowerWithin before (rest ++ after) c).length =
          (lowerWithin before' (rest ++ after') c).length :=
        (length_lowerWithin ..).trans (length_lowerWithin ..).symm
      rw [lowercaseWithin, lowercaseWithin, List.append_eq_append_iff_of_size_eq_left hlength,
        lowerWithin_eq_iff, ih]
      constructor
      · rintro ⟨hfirst, hrest⟩ front back htext
        cases front with
        | nil =>
            obtain ⟨rfl, rfl⟩ := List.cons.inj htext
            exact hfirst rfl
        | cons d front =>
            obtain ⟨rfl, rfl⟩ := List.cons.inj htext
            simpa using hrest front back rfl
      · intro hall
        refine ⟨fun hsigma => ?_, fun front back htext => ?_⟩
        · exact hall [] rest (by rw [hsigma]; rfl)
        · simpa using hall (c :: front) back (by rw [htext]; rfl)

theorem lowercaseWithin_eq_lowercase_iff :
    lowercaseWithin before after text = lowercase text ↔ SigmasKept before after text := by
  rw [lowercase, ← lowercaseWithin_nil, lowercaseWithin_eq_iff]
  simp [SigmasKept]

theorem SigmasKept.of_notMem (h : 'Σ' ∉ text) : SigmasKept before after text := by
  rintro front back rfl
  exact absurd (by simp) h

/-! ### What is found in lower case -/

theorem lowercase_prefix_iff :
    lowercase text <+: lowercase (text ++ after) ↔ SigmasKept [] after text := by
  rw [lowercase_append, List.prefix_iff_eq_take, List.take_left' (length_lowercaseWithin ..),
    eq_comm, lowercaseWithin_eq_lowercase_iff]

theorem lowercase_suffix_iff :
    lowercase text <:+ lowercase (before ++ text) ↔ SigmasKept before.reverse [] text := by
  rw [lowercase_append, List.suffix_iff_eq_append, List.length_append,
    length_lowercaseWithin before.reverse, Nat.add_sub_cancel, List.take_left,
    List.append_cancel_left_eq, eq_comm, lowercaseWithin_eq_lowercase_iff]

theorem lowercase_infix (h : SigmasKept before.reverse after text) :
    lowercase text <:+: lowercase (before ++ text ++ after) := by
  have hkept := lowercaseWithin_eq_lowercase_iff.mpr h
  rw [lowercase_append, lowercaseWithin_append, List.append_nil, hkept]
  exact List.infix_append ..

end Text

namespace Filter

/-- An operator holds of a text, with another text as its operand. -/
def OfTexts (op : FilterOp) (text needle : String) : Prop :=
  leafMatches (.str text) op (.value (.str needle)) = true

variable {op : FilterOp} {text needle : String}

theorem ofTexts_iff (h : op.isText = true) :
    OfTexts op text needle ↔ op.MeansOfText text.toList needle.toList := by
  rw [OfTexts, leafMatches_value]
  cases op <;> simp_all [FilterOp.MeansOf, FilterOp.isText]

theorem ofTexts_eq_iff : OfTexts .eq text needle ↔ text = needle := by
  rw [OfTexts, leafMatches_value]
  simp [FilterOp.MeansOf, Value.same]

/-- What operators that pass over case say of a text, where those that do not say something. -/
structure PassesOverCase (text needle : String) : Prop where
  iexact : OfTexts .eq text needle → OfTexts .iexact text needle
  found : OfTexts .iexact text needle →
    OfTexts .istartsWith text needle ∧ OfTexts .iendsWith text needle ∧
      OfTexts .icontains text needle
  /-- A needle at the beginning is found there unless a sigma of it is lowered in another way. -/
  istartsWith : ∀ after, text.toList = needle.toList ++ after →
    (OfTexts .istartsWith text needle ↔ Text.SigmasKept [] after needle.toList)
  iendsWith : ∀ before, text.toList = before ++ needle.toList →
    (OfTexts .iendsWith text needle ↔ Text.SigmasKept before.reverse [] needle.toList)
  icontains : ∀ before after, text.toList = before ++ needle.toList ++ after →
    Text.SigmasKept before.reverse after needle.toList → OfTexts .icontains text needle

/-- **Operators that pass over case are weaker, but for sigmas.** A text that is equal to another
one is so without regard to case, and then it begins with it, ends with it and contains it. A needle
without a capital sigma is found without regard to case wherever it is found with it; one that has
some is found at the beginning or at the end exactly when each of them ends a word in the text if it
does so in the needle, and no other ones do; and so it is found in the middle. -/
theorem caseless_weaker_but_sigmas (text needle : String) :
    PassesOverCase text needle ∧
      ('Σ' ∉ needle.toList →
        (OfTexts .contains text needle → OfTexts .icontains text needle) ∧
        (OfTexts .startsWith text needle → OfTexts .istartsWith text needle) ∧
        (OfTexts .endsWith text needle → OfTexts .iendsWith text needle)) := by
  have hpasses : PassesOverCase text needle := by
    refine ⟨?_, ?_, ?_, ?_, ?_⟩
    · rw [ofTexts_eq_iff, ofTexts_iff rfl]
      rintro rfl
      exact rfl
    · rw [ofTexts_iff rfl, ofTexts_iff rfl, ofTexts_iff rfl, ofTexts_iff rfl]
      intro hexact
      simp only [FilterOp.MeansOfText] at hexact ⊢
      rw [hexact]
      exact ⟨List.prefix_rfl, List.suffix_rfl, List.infix_rfl⟩
    · intro after htext
      rw [ofTexts_iff rfl, htext]
      exact Text.lowercase_prefix_iff
    · intro before htext
      rw [ofTexts_iff rfl, htext]
      exact Text.lowercase_suffix_iff
    · intro before after htext hkept
      rw [ofTexts_iff rfl, htext]
      exact Text.lowercase_infix hkept
  refine ⟨hpasses, fun hplain => ⟨?_, ?_, ?_⟩⟩
  · rw [ofTexts_iff rfl]
    rintro ⟨before, after, htext⟩
    exact hpasses.icontains before after htext.symm (.of_notMem hplain)
  · rw [ofTexts_iff rfl]
    rintro ⟨after, htext⟩
    exact (hpasses.istartsWith after htext.symm).mpr (.of_notMem hplain)
  · rw [ofTexts_iff rfl]
    rintro ⟨before, htext⟩
    exact (hpasses.iendsWith before htext.symm).mpr (.of_notMem hplain)

/-- A sigma that ends a word of the text and stands alone in the needle, and one that ends the
needle and not the text. -/
theorem caseless_loses_sigmas :
    (OfTexts .contains "ΟΔΟΣ" "Σ" ∧ ¬OfTexts .icontains "ΟΔΟΣ" "Σ") ∧
      (OfTexts .endsWith "ΟΔΟΣ" "Σ" ∧ ¬OfTexts .iendsWith "ΟΔΟΣ" "Σ") ∧
      (OfTexts .startsWith "ΟΔΟΣΗΜΟ" "ΟΔΟΣ" ∧ ¬OfTexts .istartsWith "ΟΔΟΣΗΜΟ" "ΟΔΟΣ") := by
  unfold OfTexts
  decide +kernel

end Filter

end ModelSurface
