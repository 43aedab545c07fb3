import ModelSurface.Proofs.Calendar.Reading
import ModelSurface.Proofs.Numeric.Places
import ModelSurface.Proofs.Scalar.Reading
import ModelSurface.Proofs.Scalar.Uuids

/-!
# Values that are read back

A value is shown in one form, whatever the form in which it was read. Read again, that form gives
the same value for every kind but numbers of floating point and durations, with one exception: an
offset can move an instant out of the years of four digits, and instants are read in those only.
-/

namespace ModelSurface.Value

/-- A value that is no instant, or one in a year of four digits. -/
def HasShortYear : Value → Prop
  | .instant t => 0 ≤ t.date.year ∧ t.date.year < 10000
  | _ => True

/-- All instants of a value, those in a list included, are in years of four digits. -/
def HasShortYears : Value → Prop
  | .list items => ∀ item ∈ items, item.HasShortYear
  | value => value.HasShortYear

variable {kind : Kind} {json : Json} {value : Value}

theorem hasShortYears_iff_of_isOf (h : value.isOf kind = true) :
    value.HasShortYears ↔ value.HasShortYear := by
  cases value with
  | list items => cases kind <;> cases h
  | _ => exact Iff.rfl

/-! ### Single values -/

theorem isNull_toJson (h : value.isOf kind = true) (hkind : kind ≠ .json) :
    value.toJson.isNull = false := by
  cases value with
  | null | list => cases kind <;> cases h
  | json => cases kind <;> first | exact absurd rfl hkind | cases h
  | _ => rfl

theorem isNull_toJson_scalar (hjson : json.isNull = false)
    (h : scalarOfJson kind json = .ok value) : value.toJson.isNull = false := by
  by_cases hkind : kind = .json
  · subst hkind
    rw [← Except.ok.inj h]
    exact hjson
  · exact isNull_toJson (isOf_scalarOfJson h) hkind

/-- An integer that a document gives in 64 bits is one that fits there. -/
theorem int64?_num {i : Int} (h : json.int64? = some i) : (Json.num (.int i)).int64? = some i := by
  cases json with
  | num n =>
      cases n with
      | int m =>
          change (if _ then some m else none) = some i at h
          split at h
          · rename_i hm
            obtain rfl : m = i := Option.some.inj h
            exact if_pos hm
          · cases h
      | float => cases h
  | null | bool | str | arr | obj => cases h

/-- A single value is read back if it is no instant outside the years of four digits, and only
then. -/
theorem scalarOfJson_toJson_iff (hfloat : kind ≠ .float) (hduration : kind ≠ .duration)
    (h : scalarOfJson kind json = .ok value) :
    scalarOfJson kind value.toJson = .ok value ↔ value.HasShortYear := by
  have hof := isOf_scalarOfJson h
  cases kind with
  | float => exact absurd rfl hfloat
  | duration => exact absurd rfl hduration
  | string =>
      obtain ⟨s, rfl⟩ : ∃ s, value = .str s := by
        cases value <;> first | exact ⟨_, rfl⟩ | cases hof
      exact iff_of_true rfl trivial
  | boolean =>
      obtain ⟨b, rfl⟩ : ∃ b, value = .bool b := by
        cases value <;> first | exact ⟨_, rfl⟩ | cases hof
      exact iff_of_true rfl trivial
  | json =>
      obtain ⟨j, rfl⟩ : ∃ j, value = .json j := by
        cases value <;> first | exact ⟨_, rfl⟩ | cases hof
      exact iff_of_true rfl trivial
  | integer =>
      dsimp only [scalarOfJson] at h
      split at h
      · rename_i i hi
        obtain rfl : Value.int i = value := Except.ok.inj h
        refine iff_of_true ?_ trivial
        dsimp only [scalarOfJson, toJson]
        rw [int64?_num hi]
      · cases h
  | date =>
      obtain ⟨d, rfl⟩ : ∃ d, value = .date d := by
        cases value <;> first | exact ⟨_, rfl⟩ | cases hof
      refine iff_of_true ?_ trivial
      dsimp only [scalarOfJson, toJson, ofJsonText]
      rw [d.ofText_text]
  | time =>
      obtain ⟨t, rfl⟩ : ∃ t, value = .time t := by
        cases value <;> first | exact ⟨_, rfl⟩ | cases hof
      refine iff_of_true ?_ trivial
      dsimp only [scalarOfJson, toJson, ofJsonText]
      rw [t.ofText_text]
  | decimal =>
      obtain ⟨d, rfl⟩ : ∃ d, value = .decimal d := by
        cases value <;> first | exact ⟨_, rfl⟩ | cases hof
      refine iff_of_true ?_ trivial
      dsimp only [scalarOfJson, toJson, ofDecimalText]
      rw [d.ofText_text]
  | uuid =>
      obtain ⟨u, rfl⟩ : ∃ u, value = .uuid u := by
        cases value <;> first | exact ⟨_, rfl⟩ | cases hof
      refine iff_of_true ?_ trivial
      dsimp only [scalarOfJson, toJson, ofJsonText]
      rw [u.ofText_text]
  | datetime =>
      obtain ⟨t, rfl⟩ : ∃ t, value = .instant t := by
        cases value <;> first | exact ⟨_, rfl⟩ | cases hof
      refine Iff.trans ?_ t.ofText_text_iff
      dsimp only [scalarOfJson, toJson, ofJsonText]
      constructor
      · intro hread
        split at hread
        · rename_i found hfound
          obtain rfl : found = t := Value.instant.inj (Except.ok.inj hread)
          exact hfound
        · cases hread
      · intro hread
        rw [hread]

/-! ### Lists -/

/-- What can be read from a list of values again: all of them, or none. -/
theorem itemsOfJson_toJson_iff (hfloat : kind ≠ .float) (hduration : kind ≠ .duration)
    {start : ℕ} {items : List Json} {values : List Value}
    (h : itemsOfJson kind start items = .ok values) :
    itemsOfJson kind start (itemsToJson values) = .ok values ↔
      ∀ value ∈ values, value.HasShortYear := by
  induction items generalizing start values with
  | nil =>
      rw [← Except.ok.inj h]
      exact iff_of_true rfl fun _ hmem => absurd hmem List.not_mem_nil
  | cons item items ih =>
      unfold itemsOfJson at h
      split at h
      · cases h
      · rename_i hitem
        split at h
        · cases h
        · rename_i first hfirst
          cases hrest : itemsOfJson kind (start + 1) items with
          | error fault => rw [hrest] at h; cases h
          | ok rest =>
              rw [hrest] at h
              rw [← Except.ok.inj h, List.forall_mem_cons,
                ← scalarOfJson_toJson_iff hfloat hduration hfirst, ← ih hrest]
              have hvalue := isNull_toJson_scalar (Bool.eq_false_iff.mpr hitem) hfirst
              rw [itemsToJson, itemsOfJson, if_neg (by rw [hvalue]; exact Bool.false_ne_true)]
              constructor
              · intro hread
                split at hread
                · cases hread
                · rename_i again hagain
                  cases hmore : itemsOfJson kind (start + 1) (itemsToJson rest) with
                  | error fault => rw [hmore] at hread; cases hread
                  | ok others =>
                      rw [hmore] at hread
                      obtain ⟨rfl, rfl⟩ := List.cons.inj (Except.ok.inj hread)
                      exact ⟨hagain, rfl⟩
              · rintro ⟨hagain, hmore⟩
                rw [hagain, hmore]
                rfl

/-! ### Fields -/

/-- **Values are read back.** Whatever a document gives for a field, single or a list, is written so
that it is read as the same value again, for every kind but numbers of floating point and durations.
The only values that are not read back are those with an instant in a year that does not have four
digits. -/
theorem ofJson_writtenJson_iff {list : Bool} (hfloat : kind ≠ .float) (hduration : kind ≠ .duration)
    (h : ofJson kind list json = .ok value) :
    ofJson kind list value.toJson = .ok value ↔ value.HasShortYears := by
  unfold ofJson at h
  split at h
  · rw [← Except.ok.inj h]
    exact iff_of_true rfl trivial
  · rename_i hjson
    rw [Bool.not_eq_true] at hjson
    split at h
    · rename_i hsingle
      have hvalue := isNull_toJson_scalar hjson h
      rw [hasShortYears_iff_of_isOf (isOf_scalarOfJson h),
        ← scalarOfJson_toJson_iff hfloat hduration h]
      unfold ofJson
      rw [if_neg (by rw [hvalue]; exact Bool.false_ne_true), if_pos hsingle]
    · rename_i hlist
      split at h
      · rename_i items
        cases hitems : itemsOfJson kind 0 items with
        | error fault => rw [hitems] at h; cases h
        | ok values =>
            rw [hitems] at h
            rw [← Except.ok.inj h]
            refine Iff.trans ?_ (itemsOfJson_toJson_iff hfloat hduration hitems)
            have hread : ofJson kind list (Value.list values).toJson =
                (itemsOfJson kind 0 (itemsToJson values)).map .list := by
              unfold ofJson
              rw [toJson, if_neg (show ¬ (Json.arr _).isNull = true from Bool.false_ne_true),
                if_neg hlist]
            rw [hread]
            constructor
            · intro hread
              cases hagain : itemsOfJson kind 0 (itemsToJson values) with
              | error fault => rw [hagain] at hread; cases hread
              | ok again =>
                  rw [hagain] at hread
                  rw [Value.list.inj (Except.ok.inj hread)]
            · intro hagain
              rw [hagain]
              rfl
      · cases h

theorem ofJson_datetime (text : String) :
    ofJson .datetime false (.str text) =
      match Instant.ofText text with
      | .ok t => .ok (.instant t)
      | .error fault => .error (.datetime text fault) := rfl

/-- Half past a leap second, as a clock one hour behind shows it. -/
theorem leap_second_written_back :
    let t : Instant :=
      { date := ⟨2016, 12, 31, by decide⟩
        time := ⟨23, 59, 59, 1500000000, by decide, by decide, by decide, by decide⟩ }
    let json : Json := .str "2016-12-31t22:59:60.50-01:00"
    ofJson .datetime false json = .ok (.instant t) ∧
      ofJson .datetime false (Value.instant t).toJson = .ok (.instant t) := by
  intro t json
  have htext : Instant.ofText "2016-12-31t22:59:60.50-01:00" = .ok t := by decide +kernel
  have hread : ofJson .datetime false json = .ok (.instant t) := by rw [ofJson_datetime, htext]
  exact ⟨hread, (ofJson_writtenJson_iff (by decide) (by decide) hread).mpr
    ⟨by decide, by decide⟩⟩

/-- In a zone ahead of it, the year 0 begins while it is still the year before, which has a sign. -/
theorem year_zero_not_written_back :
    ∃ value, ofJson .datetime false (.str "0000-01-01T00:00:00+01:00") = .ok value ∧
      ∀ again, ofJson .datetime false value.toJson ≠ .ok again := by
  let t : Instant :=
    { date := ⟨-1, 12, 31, by decide⟩
      time := ⟨23, 0, 0, 0, by decide, by decide, by decide, by decide⟩ }
  have hread : Instant.ofText "0000-01-01T00:00:00+01:00" = .ok t := by decide +kernel
  have hagain : Instant.ofText t.text = .error .invalid := by decide +kernel
  refine ⟨.instant t, by rw [ofJson_datetime, hread], fun again h => ?_⟩
  rw [toJson, ofJson_datetime, hagain] at h
  cases h

end ModelSurface.Value
