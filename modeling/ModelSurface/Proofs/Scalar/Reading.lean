import ModelSurface.Scalar.Identity

/-!
# Values that are read

A value that is read from a document is of the kind for which it is read, and null only where the
document is.
-/

namespace ModelSurface

namespace Value

variable {kind : Kind} {value : Value}

theorem isNull_of_isOf (h : value.isOf kind = true) : value.isNull = false := by
  cases value <;> first | rfl | simp [isOf] at h

theorem fits_of_isOf (h : value.isOf kind = true) : value.fits kind false = true := by
  cases value <;> first | exact h | rfl

theorem fits_null (kind : Kind) (list : Bool) : null.fits kind list = true := by
  cases list <;> rfl

/-- A single value that fits its kind is of the kind, or null. -/
theorem isOf_of_fits (h : value.fits kind false = true) (hnull : value.isNull = false) :
    value.isOf kind = true := by
  cases value <;> first | exact h | cases hnull

theorem isOf_of_text {json : Json} {read : String → Except CoercionFault Value}
    (hread : ∀ text found, read text = .ok found → found.isOf kind = true)
    (h : ofJsonText kind json read = .ok value) : value.isOf kind = true := by
  cases json with
  | str text => exact hread text value h
  | null | bool | num | arr | obj => cases h

theorem isOf_ofSeconds {n : Number} (h : ofSeconds n = .ok value) :
    value.isOf .duration = true := by
  unfold ofSeconds at h
  split at h <;> split at h <;> cases h <;> rfl

theorem isOf_ofDecimalText {text : String} (h : ofDecimalText text = .ok value) :
    value.isOf .decimal = true := by
  unfold ofDecimalText at h
  split at h
  · exact Except.ok.inj h ▸ rfl
  · cases h

theorem isOf_scalarOfJson {json : Json} (h : scalarOfJson kind json = .ok value) :
    value.isOf kind = true := by
  unfold scalarOfJson at h
  cases kind with
  | string | date | time | datetime | uuid =>
      refine isOf_of_text (fun text found hfound => ?_) h
      first
        | exact Except.ok.inj hfound ▸ rfl
        | split at hfound
          · exact Except.ok.inj hfound ▸ rfl
          · cases hfound
  | integer | float | boolean =>
      dsimp only at h
      split at h
      · exact Except.ok.inj h ▸ rfl
      · cases h
  | decimal =>
      dsimp only at h
      split at h
      · exact isOf_ofDecimalText h
      · exact isOf_ofDecimalText h
      · cases h
  | duration =>
      dsimp only at h
      split at h
      · exact isOf_ofSeconds h
      · cases h
  | json => exact Except.ok.inj h ▸ rfl

theorem isOf_itemsOfJson {index : Nat} {items : List Json} {values : List Value}
    (h : itemsOfJson kind index items = .ok values) : ∀ value ∈ values, value.isOf kind = true := by
  induction items generalizing index values with
  | nil =>
      rw [← Except.ok.inj h]
      exact fun _ hmem => absurd hmem List.not_mem_nil
  | cons item items ih =>
      unfold itemsOfJson at h
      split at h
      · cases h
      · split at h
        · cases h
        · rename_i first hfirst
          cases hrest : itemsOfJson kind (index + 1) items with
          | error fault => rw [hrest] at h; cases h
          | ok rest =>
              rw [hrest] at h
              rw [← Except.ok.inj h]
              exact List.forall_mem_cons.mpr ⟨isOf_scalarOfJson hfirst, ih hrest⟩

/-- What is read for a field of a kind, a list or a single value, fits it. -/
theorem fits_ofJson {list : Bool} {json : Json} (h : ofJson kind list json = .ok value) :
    value.fits kind list = true ∧ (value.isNull = true → json.isNull = true) := by
  unfold ofJson at h
  split at h
  · rename_i hnull
    rw [← Except.ok.inj h]
    exact ⟨fits_null kind list, fun _ => hnull⟩
  · split at h
    · rename_i hsingle
      rw [Bool.not_eq_true'] at hsingle
      have hkind := isOf_scalarOfJson h
      rw [hsingle, isNull_of_isOf hkind]
      exact ⟨fits_of_isOf hkind, fun hnull => absurd hnull Bool.false_ne_true⟩
    · rename_i hlist
      have hmany : list = true := by simpa using hlist
      split at h
      · rename_i items _
        cases hitems : itemsOfJson kind 0 items with
        | error fault => rw [hitems] at h; cases h
        | ok values =>
            rw [hitems] at h
            rw [← Except.ok.inj h, hmany]
            exact ⟨List.all_eq_true.mpr (isOf_itemsOfJson hitems), fun hnull => by cases hnull⟩
      · cases h

end Value

/-! ### Identities -/

/-- Whether an identity can identify records of a model whose identities are of the kind. -/
def Identity.IsOf (id : Identity) (kind : Kind) : Prop := id.toValue.isOf kind = true

theorem Identity.isNull_toValue (id : Identity) : id.toValue.isNull = false := by
  cases id <;> rfl

end ModelSurface
