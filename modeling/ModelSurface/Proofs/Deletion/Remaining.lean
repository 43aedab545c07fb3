import ModelSurface.Store.Tables
import ModelSurface.Write.Delete

/-!
# What remains of references

Records that are deleted leave other records without references to them. What remains of a value is
a function of the value and of what is gone, so that the order in which records go does not matter.
-/

namespace ModelSurface

/-! ### References to records -/

namespace Identity

theorem same_toValue {id : Identity} {value : Value} :
    id.toValue.same value = true ↔ value = id.toValue := by
  cases id <;> cases value <;> simp [toValue, Value.same] <;> exact eq_comm

theorem toValue_same {id : Identity} {value : Value} :
    value.same id.toValue = true ↔ value = id.toValue := by
  cases id <;> cases value <;> simp [toValue, Value.same]

end Identity

namespace Value

/-- Whether a value is the identity of one of the records of a model that are gone. -/
def isGone (gone : List RowKey) (model : String) (value : Value) : Bool :=
  (Identity.ofValue? value).any fun id => gone.contains ⟨model, id⟩

/-- Whether a reference leads to one of the records that are gone. -/
def holdsGone (gone : List RowKey) (model : String) : Value → Bool
  | .list items => items.any (isGone gone model)
  | value => value.isGone gone model

variable {gone lost : List RowKey} {model : String} {value : Value}

theorem isGone_iff :
    value.isGone gone model = true ↔ ∃ id, value = id.toValue ∧ ⟨model, id⟩ ∈ gone := by
  unfold isGone
  rw [Option.any_eq_true]
  constructor
  · rintro ⟨id, hid, hmem⟩
    exact ⟨id, Identity.toValue_of_ofValue? hid, List.contains_iff_mem.mp hmem⟩
  · rintro ⟨id, rfl, hmem⟩
    exact ⟨id, Identity.ofValue?_toValue id, List.contains_iff_mem.mpr hmem⟩

theorem isGone_nil : value.isGone [] model = false := by
  rw [Bool.eq_false_iff]
  intro h
  obtain ⟨id, -, hmem⟩ := isGone_iff.mp h
  cases hmem

theorem isGone_append :
    value.isGone (gone ++ lost) model = (value.isGone gone model || value.isGone lost model) := by
  rw [Bool.eq_iff_iff, Bool.or_eq_true, isGone_iff, isGone_iff, isGone_iff]
  constructor
  · rintro ⟨id, heq, hmem⟩
    rcases List.mem_append.mp hmem with h | h
    · exact .inl ⟨id, heq, h⟩
    · exact .inr ⟨id, heq, h⟩
  · rintro (⟨id, heq, h⟩ | ⟨id, heq, h⟩)
    · exact ⟨id, heq, List.mem_append_left _ h⟩
    · exact ⟨id, heq, List.mem_append_right _ h⟩

theorem isGone_singleton {key : RowKey} :
    value.isGone [key] key.model = key.id.toValue.same value := by
  rw [Bool.eq_iff_iff, isGone_iff, Identity.same_toValue]
  constructor
  · rintro ⟨id, rfl, hmem⟩
    rw [← List.mem_singleton.mp hmem]
  · rintro rfl
    exact ⟨key.id, rfl, List.mem_singleton.mpr rfl⟩

theorem isGone_of_other {key : RowKey} (h : key.model ≠ model) :
    value.isGone [key] model = false := by
  rw [Bool.eq_false_iff]
  intro hgone
  obtain ⟨id, -, hmem⟩ := isGone_iff.mp hgone
  exact h (congrArg RowKey.model (List.mem_singleton.mp hmem)).symm

theorem isGone_congr (h : ∀ key, key ∈ gone ↔ key ∈ lost) :
    value.isGone gone model = value.isGone lost model := by
  rw [Bool.eq_iff_iff, isGone_iff, isGone_iff]
  exact exists_congr fun id => and_congr_right fun _ => h ⟨model, id⟩

theorem holdsGone_append : value.holdsGone (gone ++ lost) model =
    (value.holdsGone gone model || value.holdsGone lost model) := by
  cases value with
  | list items =>
      change items.any (isGone (gone ++ lost) model) =
        (items.any (isGone gone model) || items.any (isGone lost model))
      induction items with
      | nil => rfl
      | cons item items ih =>
          rw [List.any_cons, List.any_cons, List.any_cons, ih, isGone_append]
          ac_rfl
  | _ => exact isGone_append

theorem holdsGone_congr (h : ∀ key, key ∈ gone ↔ key ∈ lost) :
    value.holdsGone gone model = value.holdsGone lost model := by
  cases value with
  | list items => exact congrArg items.any (funext fun item => isGone_congr h)
  | _ => exact isGone_congr h

theorem holdsGone_nil : value.holdsGone [] model = false := by
  cases value with
  | list items => exact List.any_eq_false.mpr fun item _ => Bool.eq_false_iff.mp isGone_nil
  | _ => exact isGone_nil

theorem holdsGone_of_other {key : RowKey} (h : key.model ≠ model) :
    value.holdsGone [key] model = false := by
  cases value with
  | list items =>
      exact List.any_eq_false.mpr fun item _ => Bool.eq_false_iff.mp (isGone_of_other h)
  | _ => exact isGone_of_other h

/-- A reference leads to a record exactly if it holds it when nothing else is gone. -/
theorem refersTo_eq_holdsGone {key : RowKey} :
    key.id.toValue.refersTo (some value) = value.holdsGone [key] key.model := by
  cases value with
  | list items => exact congrArg items.any (funext fun item => isGone_singleton.symm)
  | _ =>
      rw [Bool.eq_iff_iff]
      exact Identity.toValue_same.trans (Identity.same_toValue.symm.trans
        (Bool.eq_iff_iff.mp isGone_singleton.symm))

end Value

/-! ### Values -/

namespace Relationship

/-- What remains of the value of a relationship: a set of links keeps its other members in order,
and a single reference is cleared if it may be. -/
def remaining (relationship : Relationship) (gone : List RowKey) (value : Value) : Value :=
  match Deletion.effectOf relationship with
  | .unlink =>
    match value with
    | .list items => .list (items.filter fun item => !item.isGone gone relationship.target)
    | value => value
  | .clear => if value.holdsGone gone relationship.target then .null else value
  | .cascade | .restrict => value

variable (relationship : Relationship) {gone lost : List RowKey} {value : Value}

theorem remaining_of_not_holdsGone (h : value.holdsGone gone relationship.target = false) :
    relationship.remaining gone value = value := by
  unfold remaining
  split
  · cases value with
    | list items =>
        dsimp only
        rw [List.filter_eq_self.mpr]
        intro item hitem
        rw [Bool.not_eq_true', Bool.eq_false_iff]
        exact List.any_eq_false.mp h item hitem
    | _ => rfl
  · rw [if_neg (Bool.eq_false_iff.mp h)]
  · rfl
  · rfl

theorem remaining_nil : relationship.remaining [] value = value :=
  relationship.remaining_of_not_holdsGone Value.holdsGone_nil

theorem remaining_of_unlink (heffect : Deletion.effectOf relationship = .unlink)
    (items : List Value) : relationship.remaining gone (.list items) =
      .list (items.filter fun item => !item.isGone gone relationship.target) := by
  unfold remaining
  rw [heffect]

theorem remaining_of_clear (heffect : Deletion.effectOf relationship = .clear) :
    relationship.remaining gone value =
      if value.holdsGone gone relationship.target then .null else value := by
  unfold remaining
  rw [heffect]

theorem remaining_of_kept (heffect : Deletion.effectOf relationship = .cascade ∨
    Deletion.effectOf relationship = .restrict) : relationship.remaining gone value = value := by
  unfold remaining
  rcases heffect with heffect | heffect <;> rw [heffect]

theorem remaining_of_not_list (heffect : Deletion.effectOf relationship = .unlink)
    (h : ∀ items, value ≠ .list items) : relationship.remaining gone value = value := by
  unfold remaining
  rw [heffect]
  dsimp only
  split
  · rename_i items
    exact absurd rfl (h items)
  · rfl

theorem remaining_congr (h : ∀ key, key ∈ gone ↔ key ∈ lost) :
    relationship.remaining gone value = relationship.remaining lost value := by
  have hitem : ∀ item : Value, item.isGone gone relationship.target =
      item.isGone lost relationship.target := fun item => Value.isGone_congr h
  unfold remaining
  simp only [hitem, Value.holdsGone_congr h]

/-- Records may go at once or one after another. -/
theorem remaining_remaining :
    relationship.remaining lost (relationship.remaining gone value) =
      relationship.remaining (gone ++ lost) value := by
  unfold remaining
  cases Deletion.effectOf relationship with
  | unlink =>
      cases value with
      | list items =>
          simp only [List.filter_filter, Value.isGone_append, Bool.not_or, Bool.and_comm]
      | _ => rfl
  | clear =>
      dsimp only
      rw [Value.holdsGone_append]
      cases hgone : value.holdsGone gone relationship.target with
      | true =>
          simp only [if_true, Bool.true_or]
          exact if_neg (by simp [Value.holdsGone, Value.isGone, Identity.ofValue?])
      | false => rfl
  | cascade => rfl
  | restrict => rfl

/-- A value from which no single record takes anything keeps all when they go together. -/
theorem remaining_of_fixed
    (h : ∀ key ∈ gone, relationship.remaining [key] value = value) :
    relationship.remaining gone value = value := by
  induction gone with
  | nil => exact relationship.remaining_nil
  | cons key gone ih =>
      calc relationship.remaining (key :: gone) value
          = relationship.remaining gone (relationship.remaining [key] value) := by
            rw [remaining_remaining, List.singleton_append]
        _ = relationship.remaining gone value := by rw [h key List.mem_cons_self]
        _ = value := ih fun other hother => h other (List.mem_cons_of_mem _ hother)

/-- A value that some of the gone records have been taken out of, and that holds none of them, is
what remains when all of them are gone. -/
theorem remaining_of_partial (hlost : ∀ key ∈ lost, key ∈ gone)
    (h : ∀ key ∈ gone, relationship.remaining [key] (relationship.remaining lost value) =
      relationship.remaining lost value) :
    relationship.remaining lost value = relationship.remaining gone value := by
  have hsame : ∀ key, key ∈ lost ++ gone ↔ key ∈ gone := by
    intro key
    rw [List.mem_append]
    exact ⟨fun hkey => hkey.elim (hlost key) id, .inr⟩
  calc relationship.remaining lost value
      = relationship.remaining gone (relationship.remaining lost value) :=
        (relationship.remaining_of_fixed h).symm
    _ = relationship.remaining (lost ++ gone) value := relationship.remaining_remaining
    _ = relationship.remaining gone value := relationship.remaining_congr hsame

theorem remaining_comm :
    relationship.remaining lost (relationship.remaining gone value) =
      relationship.remaining gone (relationship.remaining lost value) := by
  rw [remaining_remaining, remaining_remaining]
  refine relationship.remaining_congr fun key => ?_
  rw [List.mem_append, List.mem_append, or_comm]

end Relationship

end ModelSurface
