import ModelSurface.Proofs.Filter.Meaning
import ModelSurface.Proofs.Scalar.Measures
import ModelSurface.Proofs.Scalar.RoundTrip

/-!
# Comparisons of values

The predicates that compare values belong together: whether a value is less than another one, equal
to it or greater is told by the numbers that the two stand for, and by nothing else in the way they
are written. A field without a value is equal to nothing, and neither before nor behind anything.
-/

namespace ModelSurface

/-- A value of a kind, other than null, that is read from a document. -/
def Value.GivenAs (kind : Kind) (value : Value) : Prop :=
  value.isNull = false ∧ ∃ json, Value.ofJson kind false json = .ok value

theorem Value.GivenAs.isOf {kind : Kind} {value : Value} (h : value.GivenAs kind) :
    value.isOf kind = true := by
  obtain ⟨hgiven, json, hread⟩ := h
  exact isOf_of_fits (fits_ofJson hread).1 hgiven

namespace Filter

/-! ### What two values stand for -/

section Measured

variable {kind : Kind} {value operand : Value}

/-- Comparisons of two values are those of what they stand for. -/
structure Measured (value operand : Value) : Prop where
  lt : leafMatches value .lt (.value operand) = true ↔ value.numbers < operand.numbers
  eq : leafMatches value .eq (.value operand) = true ↔ value.numbers = operand.numbers
  gt : leafMatches value .gt (.value operand) = true ↔ operand.numbers < value.numbers
  lte : leafMatches value .lte (.value operand) = true ↔ value.numbers ≤ operand.numbers
  gte : leafMatches value .gte (.value operand) = true ↔ operand.numbers ≤ value.numbers

theorem measured (hkind : kind.isOrderable = true) (hvalue : value.isOf kind = true)
    (hoperand : operand.isOf kind = true) : Measured value operand := by
  obtain ⟨order, horder, hcompares⟩ := Value.exists_compare? hkind hvalue hoperand
  refine ⟨?_, Value.same_iff_numbers hkind hvalue hoperand, ?_, ?_, ?_⟩
  · rw [leafMatches_value, ← hcompares.eq_lt]
    simp [FilterOp.MeansOf, horder]
  · rw [leafMatches_value, ← hcompares.eq_gt]
    simp [FilterOp.MeansOf, horder]
  · rw [leafMatches_value, ← hcompares.ne_gt]
    cases order <;> simp [FilterOp.MeansOf, horder]
  · rw [leafMatches_value, ← hcompares.ne_lt]
    cases order <;> simp [FilterOp.MeansOf, horder]

end Measured

/-! ### How comparisons belong together -/

/-- How the comparisons of a value with two others of its kind belong together. -/
structure Coherent (kind : Kind) (value low high : Value) : Prop where
  one : ∃! op, op ∈ [FilterOp.lt, .eq, .gt] ∧ leafMatches value op (.value low) = true
  lte_iff : leafMatches value .lte (.value low) = true ↔
    leafMatches value .lt (.value low) = true ∨ leafMatches value .eq (.value low) = true
  gte_iff : leafMatches value .gte (.value low) = true ↔
    leafMatches value .gt (.value low) = true ∨ leafMatches value .eq (.value low) = true
  range_iff : leafMatches value .range (.range low high) = true ↔
    leafMatches value .gte (.value low) = true ∧ leafMatches value .lte (.value high) = true
  isIn_iff : ∀ values, (∀ item ∈ values, item.GivenAs kind) →
    (leafMatches value .isIn (.values values) = true ↔
      ∃ item ∈ values, leafMatches value .eq (.value item) = true)
  ne_eq : leafMatches value .ne (.value low) = !leafMatches value .eq (.value low)
  notIn_eq : ∀ values,
    leafMatches value .notIn (.values values) = !leafMatches value .isIn (.values values)
  lt_trans : leafMatches value .lt (.value low) = true →
    leafMatches low .lt (.value high) = true → leafMatches value .lt (.value high) = true

/-- What comparisons say of a field that is null or absent. -/
structure Silent (record : Record) (field : String) (low high : Value) (values : List Value) :
    Prop where
  never : ∀ related model, ∀ leaf ∈ [(FilterOp.lt, Operand.value low), (.lte, .value low),
      (.gt, .value low), (.gte, .value low), (.range, .range low high), (.eq, .value low),
      (.isIn, .values values)],
    holds related model record (.leaf field leaf.1 leaf.2) = false
  always : ∀ related model, ∀ leaf ∈ [(FilterOp.ne, Operand.value low), (.notIn, .values values)],
    holds related model record (.leaf field leaf.1 leaf.2) = true

variable {kind : Kind} {value low high : Value}

theorem Measured.one (h : Measured value low) :
    ∃! op, op ∈ [FilterOp.lt, .eq, .gt] ∧ leafMatches value op (.value low) = true := by
  rcases lt_trichotomy value.numbers low.numbers with hless | hsame | hgreater
  · refine ⟨.lt, ⟨by simp, h.lt.mpr hless⟩, ?_⟩
    rintro op ⟨hop, hholds⟩
    simp only [List.mem_cons, List.not_mem_nil, or_false] at hop
    rcases hop with rfl | rfl | rfl
    · rfl
    · exact absurd (h.eq.mp hholds) hless.ne
    · exact absurd (h.gt.mp hholds) hless.asymm
  · refine ⟨.eq, ⟨by simp, h.eq.mpr hsame⟩, ?_⟩
    rintro op ⟨hop, hholds⟩
    simp only [List.mem_cons, List.not_mem_nil, or_false] at hop
    rcases hop with rfl | rfl | rfl
    · exact absurd hsame (h.lt.mp hholds).ne
    · rfl
    · exact absurd hsame (h.gt.mp hholds).ne'
  · refine ⟨.gt, ⟨by simp, h.gt.mpr hgreater⟩, ?_⟩
    rintro op ⟨hop, hholds⟩
    simp only [List.mem_cons, List.not_mem_nil, or_false] at hop
    rcases hop with rfl | rfl | rfl
    · exact absurd (h.lt.mp hholds) hgreater.asymm
    · exact absurd (h.eq.mp hholds) hgreater.ne'
    · rfl

theorem isIn_iff (hkind : kind.isOrderable = true) (hvalue : value.isOf kind = true)
    {values : List Value} (hvalues : ∀ item ∈ values, item.isOf kind = true) :
    leafMatches value .isIn (.values values) = true ↔
      ∃ item ∈ values, leafMatches value .eq (.value item) = true := by
  change values.any (fun item => item.same value) = true ↔ _
  rw [List.any_eq_true]
  refine exists_congr fun item => and_congr_right fun hmem => ?_
  -- the list is asked whether an item is the value, not whether the value is an item
  rw [(measured hkind hvalue (hvalues item hmem)).eq,
    Value.same_iff_numbers hkind (hvalues item hmem) hvalue]
  exact eq_comm

theorem coherent (hkind : kind.isOrderable = true) (hvalue : value.isOf kind = true)
    (hlow : low.isOf kind = true) (hhigh : high.isOf kind = true) :
    Coherent kind value low high := by
  have hfirst := measured hkind hvalue hlow
  have hsecond := measured hkind hlow hhigh
  have hacross := measured hkind hvalue hhigh
  refine ⟨hfirst.one, ?_, ?_, ?_, ?_, rfl, fun _ => rfl, ?_⟩
  · rw [hfirst.lte, hfirst.lt, hfirst.eq]
    exact le_iff_lt_or_eq
  · rw [hfirst.gte, hfirst.gt, hfirst.eq]
    exact le_iff_lt_or_eq.trans (or_congr_right eq_comm)
  · change (FilterOp.range == .range && isAtLeast value low && isAtMost value high) = true ↔
      isAtLeast value low = true ∧ isAtMost value high = true
    simp
  · exact fun values hvalues => isIn_iff hkind hvalue fun item hmem => (hvalues item hmem).isOf
  · rw [hfirst.lt, hsecond.lt, hacross.lt]
    exact lt_trans

theorem null_same (hvalue : value.isNull = false) :
    Value.null.same value = false ∧ value.same .null = false := by
  cases value with
  | null => cases hvalue
  | _ => exact ⟨rfl, rfl⟩

theorem silent {record : Record} {field : String} {values : List Value}
    (hnothing : (record.get? field).getD .null = .null) (hlow : low.isNull = false)
    (hvalues : ∀ item ∈ values, item.isNull = false) : Silent record field low high values := by
  have hamong : (values.any fun item => item.same .null) = false := by
    simpa using fun item hmem => (null_same (hvalues item hmem)).2
  constructor
  · intro related model leaf hleaf
    simp only [List.mem_cons, List.not_mem_nil, or_false] at hleaf
    unfold holds
    rw [hnothing]
    rcases hleaf with rfl | rfl | rfl | rfl | rfl | rfl | rfl
    · rfl
    · rfl
    · rfl
    · rfl
    · rfl
    · exact (null_same hlow).1
    · exact hamong
  · intro related model leaf hleaf
    simp only [List.mem_cons, List.not_mem_nil, or_false] at hleaf
    unfold holds
    rw [hnothing]
    rcases hleaf with rfl | rfl
    · exact congrArg Bool.not (null_same hlow).1
    · exact congrArg Bool.not hamong

/-- **Comparisons are coherent.** Of three values of a kind that has an order exactly one is true of
the first and the second: it is less, equal or greater, whatever texts and numbers they are written
as. The other comparisons say what these three say, and less is transitive. On a field that is null
or absent no comparison holds but those that deny one. -/
theorem comparisons_coherent {kind : Kind} (hkind : kind.isOrderable = true)
    {value low high : Value} (hvalue : value.GivenAs kind) (hlow : low.GivenAs kind)
    (hhigh : high.GivenAs kind) :
    Coherent kind value low high ∧
      ∀ (record : Record) (field : String), record.get? field = none ∨
          record.get? field = some .null →
        ∀ values, (∀ item ∈ values, item.GivenAs kind) → Silent record field low high values := by
  refine ⟨coherent hkind hvalue.isOf hlow.isOf hhigh.isOf, ?_⟩
  intro record field hnothing values hvalues
  refine silent ?_ hlow.1 fun item hmem => (hvalues item hmem).1
  rcases hnothing with hnone | hnull
  · rw [hnone, Option.getD_none]
  · rw [hnull, Option.getD_some]

/-- The leap second at the end of a year. -/
def leapSecond : Instant where
  date := ⟨2016, 12, 31, by decide⟩
  time := ⟨23, 59, 59, 1000000000, by decide, by decide, by decide, by decide⟩

/-- A morning shortly after it. -/
def newYear : Instant where
  date := ⟨2017, 1, 1, by decide⟩
  time := ⟨8, 15, 30, 500, by decide, by decide, by decide, by decide⟩

/-- A leap second is the same one in two zones, and it is over before the next morning. -/
theorem comparisons_coherent_leap :
    Value.ofJson .datetime false (.str "2016-12-31T23:59:60Z") = .ok (.instant leapSecond) ∧
      Value.ofJson .datetime false (.str "2017-01-01T00:59:60+01:00") = .ok (.instant leapSecond) ∧
      Value.ofJson .datetime false (.str "2017-01-01T08:15:30.0000005Z") = .ok (.instant newYear) ∧
      leafMatches (.instant leapSecond) .lt (.value (.instant newYear)) = true ∧
      Coherent .datetime (.instant leapSecond) (.instant leapSecond) (.instant newYear) ∧
      Silent .empty "at" (.instant leapSecond) (.instant newYear) [.instant newYear] := by
  obtain ⟨hutc, hzone, hnext⟩ : Instant.ofText "2016-12-31T23:59:60Z" = .ok leapSecond ∧
      Instant.ofText "2017-01-01T00:59:60+01:00" = .ok leapSecond ∧
        Instant.ofText "2017-01-01T08:15:30.0000005Z" = .ok newYear := by decide +kernel
  have hread : ∀ {text instant}, Instant.ofText text = .ok instant →
      Value.ofJson .datetime false (.str text) = .ok (.instant instant) := by
    intro text instant htext
    rw [Value.ofJson_datetime, htext]
  have hleap : (Value.instant leapSecond).GivenAs .datetime := ⟨rfl, _, hread hutc⟩
  have hyear : (Value.instant newYear).GivenAs .datetime := ⟨rfl, _, hread hnext⟩
  have hkind : Kind.datetime.isOrderable = true := rfl
  obtain ⟨hcoherent, hsilent⟩ := comparisons_coherent hkind hleap hleap hyear
  exact ⟨hread hutc, hread hzone, hread hnext, by decide, hcoherent,
    hsilent .empty "at" (.inl rfl) [_] (List.forall_mem_singleton.mpr hyear)⟩

end Filter

end ModelSurface
