import ModelSurface.Proofs.Deletion.Remaining

/-!
# Erosion

While a record is deleted, other records lose references one by one. Each step wears records down
to what remains when some records are gone, and steps add up.
-/

namespace ModelSurface

namespace Schema

/-- The relationship that records of a model hold under a name. -/
def reference? (schema : Schema) (model field : String) : Option Relationship := do
  let model ← schema.model? model
  (model.relationship? field).filter (·.isOwn)

/-- What remains of the value of a field when some records are gone. -/
def remaining (schema : Schema) (gone : List RowKey) (model field : String) (value : Value) :
    Value :=
  match schema.reference? model field with
  | some relationship => relationship.remaining gone value
  | none => value

variable {schema : Schema} {model field : String} {gone lost : List RowKey}

theorem remaining_of_reference {relationship : Relationship}
    (h : schema.reference? model field = some relationship) (value : Value) :
    schema.remaining gone model field value = relationship.remaining gone value := by
  unfold remaining
  rw [h]

theorem remaining_of_no_reference (h : schema.reference? model field = none) :
    schema.remaining gone model field = id := by
  funext value
  unfold remaining
  rw [h]
  rfl

theorem remaining_nil : schema.remaining [] model field = id := by
  funext value
  unfold remaining
  split
  · exact Relationship.remaining_nil _
  · rfl

theorem remaining_comp_remaining :
    schema.remaining lost model field ∘ schema.remaining gone model field =
      schema.remaining (gone ++ lost) model field := by
  funext value
  unfold remaining
  dsimp only [Function.comp_apply]
  split
  · exact Relationship.remaining_remaining _
  · rfl

end Schema

/-! ### Records -/

namespace Record

/-- A record that has lost references to some of the records that are gone, and nothing else. -/
structure Eroded (schema : Schema) (model : String) (gone : List RowKey) (before after : Record) :
    Prop where
  keys : after.keys = before.keys
  get? : ∀ field, ∃ lost ⊆ gone,
    after.get? field = (before.get? field).map (schema.remaining lost model field)

namespace Eroded

variable {schema : Schema} {model : String} {gone lost : List RowKey}
  {before between after : Record}

theorem refl (record : Record) : Eroded schema model gone record record where
  keys := rfl
  get? field := by
    refine ⟨[], List.nil_subset _, ?_⟩
    rw [Schema.remaining_nil, Option.map_id]
    rfl

theorem mono (h : Eroded schema model lost before after) (hsubset : lost ⊆ gone) :
    Eroded schema model gone before after where
  keys := h.keys
  get? field := by
    obtain ⟨taken, htaken, heq⟩ := h.get? field
    exact ⟨taken, List.Subset.trans htaken hsubset, heq⟩

theorem trans (hfirst : Eroded schema model gone before between)
    (hsecond : Eroded schema model gone between after) :
    Eroded schema model gone before after where
  keys := hsecond.keys.trans hfirst.keys
  get? field := by
    obtain ⟨first, hfirst_gone, hbetween⟩ := hfirst.get? field
    obtain ⟨second, hsecond_gone, hafter⟩ := hsecond.get? field
    refine ⟨first ++ second, List.append_subset.mpr ⟨hfirst_gone, hsecond_gone⟩, ?_⟩
    rw [hafter, hbetween, Option.map_map, Schema.remaining_comp_remaining]

/-- A field that only loses what one of the gone records takes. -/
theorem of_put {field : String} {key : RowKey} {value : Value} (hkey : key ∈ gone)
    (hvalue : before.get? field = some value) :
    Eroded schema model gone before
      (before.put field (schema.remaining [key] model field value)) where
  keys := by
    rw [Keyed.keys_put, if_pos]
    exact Keyed.isSome_get?_iff.mp (Option.isSome_of_eq_some hvalue)
  get? other := by
    rw [Keyed.get?_put]
    split
    · rename_i heq
      refine ⟨[key], List.cons_subset.mpr ⟨hkey, List.nil_subset _⟩, ?_⟩
      rw [heq, hvalue]
      rfl
    · exact (refl before).get? other

end Eroded

end Record

/-! ### Schemas whose names can be trusted -/

/-- What the removal of records relies on: names of models, and of the relationships of a model,
belong to one of them only, and no relationship has the name of the identity. -/
structure Schema.Regular (schema : Schema) : Prop where
  model?_eq_some : ∀ {name model},
    schema.model? name = some model ↔ model ∈ schema.models ∧ model.name = name
  relationship?_eq_some : ∀ {model}, model ∈ schema.models → ∀ {name relationship},
    model.relationship? name = some relationship ↔
      relationship ∈ model.relationships.values ∧ relationship.name = name
  identity : ∀ model ∈ schema.models, model.relationship? model.identity.name = none

namespace Schema.Regular

variable {schema : Schema} {model : Model}

theorem reference?_eq_some (hregular : schema.Regular) {name field : String}
    {relationship : Relationship} : schema.reference? name field = some relationship ↔
      ∃ model ∈ schema.models, model.name = name ∧
        relationship ∈ model.relationships.values ∧ relationship.name = field ∧
        relationship.isOwn := by
  unfold Schema.reference?
  rw [Option.bind_eq_bind, Option.bind_eq_some_iff]
  constructor
  · rintro ⟨model, hmodel, hfiltered⟩
    obtain ⟨hmem, hname⟩ := hregular.model?_eq_some.mp hmodel
    obtain ⟨hfound, hown⟩ := Option.filter_eq_some_iff.mp hfiltered
    obtain ⟨hvalue, hfield⟩ := (hregular.relationship?_eq_some hmem).mp hfound
    exact ⟨model, hmem, hname, hvalue, hfield, hown⟩
  · rintro ⟨model, hmem, hname, hvalue, hfield, hown⟩
    refine ⟨model, hregular.model?_eq_some.mpr ⟨hmem, hname⟩, ?_⟩
    exact Option.filter_eq_some_iff.mpr
      ⟨(hregular.relationship?_eq_some hmem).mpr ⟨hvalue, hfield⟩, hown⟩

theorem reference?_own (hregular : schema.Regular) (hmodel : model ∈ schema.models)
    {relationship : Relationship} (hmem : relationship ∈ model.relationships.values)
    (hown : relationship.isOwn) :
    schema.reference? model.name relationship.name = some relationship :=
  hregular.reference?_eq_some.mpr ⟨model, hmodel, rfl, hmem, rfl, hown⟩

theorem remaining_identity (hregular : schema.Regular) (hmodel : model ∈ schema.models)
    (gone : List RowKey) : schema.remaining gone model.name model.identity.name = id := by
  have hnone : schema.reference? model.name model.identity.name = none := by
    unfold Schema.reference?
    rw [hregular.model?_eq_some.mpr ⟨hmodel, rfl⟩, Option.bind_eq_bind, Option.bind_some,
      hregular.identity model hmodel]
    rfl
  funext value
  unfold Schema.remaining
  rw [hnone]
  rfl

end Schema.Regular

/-! ### Tables -/

namespace Tables

/-- Every stored record of a model carries its own identity. -/
def Identified (schema : Schema) (tables : Tables) : Prop :=
  ∀ model ∈ schema.models, ∀ id record, tables.get? model.name id = some record →
    Record.identity? record model.identity.name = some id

theorem identified_empty {schema : Schema} : Identified schema {} := by
  intro model _ id record h
  cases h

theorem Identified.put {schema : Schema} {tables : Tables} (h : tables.Identified schema)
    {name : String} {id : Identity} {record : Record}
    (hrecord : ∀ model ∈ schema.models, model.name = name →
      Record.identity? record model.identity.name = some id) :
    (tables.put name id record).Identified schema := by
  intro model hmodel other found hfound
  rw [get?_put] at hfound
  split at hfound
  · rename_i hsame
    rw [← Option.some.inj hfound, hrecord model hmodel hsame.1, hsame.2]
  · exact h model hmodel other found hfound

theorem Identified.erase {schema : Schema} {tables : Tables} (h : tables.Identified schema)
    (name : String) (id : Identity) : (tables.erase name id).Identified schema := by
  intro model hmodel other record hrecord
  rw [get?_erase] at hrecord
  split at hrecord
  · cases hrecord
  · exact h model hmodel other record hrecord

/-- Apart from the records that are gone, the same records are stored, worn down by those. -/
def Eroded (schema : Schema) (gone : List RowKey) (before after : Tables) : Prop :=
  ∀ key ∉ gone, Option.Rel (Record.Eroded schema key.model gone)
    (before.get? key.model key.id) (after.get? key.model key.id)

variable {schema : Schema} {gone lost : List RowKey} {before between after : Tables}

theorem Eroded.refl (tables : Tables) : Eroded schema gone tables tables := by
  intro key _
  cases tables.get? key.model key.id with
  | none => exact .none
  | some record => exact .some (.refl record)

theorem Eroded.mono (h : Eroded schema lost before after) (hsubset : lost ⊆ gone) :
    Eroded schema gone before after := by
  intro key hkey
  have hrel := h key fun hmem => hkey (hsubset hmem)
  generalize before.get? key.model key.id = old at hrel ⊢
  generalize after.get? key.model key.id = new at hrel ⊢
  cases hrel with
  | none => exact .none
  | some hrecord => exact .some (hrecord.mono hsubset)

theorem Eroded.trans (hfirst : Eroded schema gone before between)
    (hsecond : Eroded schema gone between after) : Eroded schema gone before after := by
  intro key hkey
  have hbetween := hfirst key hkey
  have hafter := hsecond key hkey
  generalize before.get? key.model key.id = old at hbetween ⊢
  generalize between.get? key.model key.id = middle at hbetween hafter
  generalize after.get? key.model key.id = new at hafter ⊢
  cases hbetween with
  | none =>
      cases hafter
      exact .none
  | some hold =>
      cases hafter with
      | some hnew => exact .some (hold.trans hnew)

/-- A record that is still stored was stored before, with as much or more in it. -/
theorem Eroded.of_after (h : Eroded schema gone before after) (key : RowKey) (hkey : key ∉ gone)
    {new : Record} (hnew : after.get? key.model key.id = some new) :
    ∃ old, before.get? key.model key.id = some old ∧
      Record.Eroded schema key.model gone old new := by
  have hrel := h key hkey
  rw [hnew] at hrel
  cases hold : before.get? key.model key.id with
  | none => rw [hold] at hrel; cases hrel
  | some old =>
      rw [hold] at hrel
      cases hrel with
      | some hrecord => exact ⟨old, rfl, hrecord⟩

theorem Eroded.of_before (h : Eroded schema gone before after) (key : RowKey) (hkey : key ∉ gone)
    {old : Record} (hold : before.get? key.model key.id = some old) :
    ∃ new, after.get? key.model key.id = some new ∧
      Record.Eroded schema key.model gone old new := by
  have hrel := h key hkey
  rw [hold] at hrel
  cases hnew : after.get? key.model key.id with
  | none => rw [hnew] at hrel; cases hrel
  | some new =>
      rw [hnew] at hrel
      cases hrel with
      | some hrecord => exact ⟨new, rfl, hrecord⟩

end Tables

namespace Record.Eroded

variable {schema : Schema} {model : Model} {gone : List RowKey} {before after : Record}

theorem identity? (h : Eroded schema model.name gone before after) (hregular : schema.Regular)
    (hmodel : model ∈ schema.models) :
    Record.identity? after model.identity.name = Record.identity? before model.identity.name := by
  obtain ⟨lost, -, heq⟩ := h.get? model.identity.name
  unfold Record.identity?
  rw [heq, hregular.remaining_identity hmodel, Option.map_id]
  rfl

/-- A reference that is neither cleared nor taken out of a set stays as it is. -/
theorem get?_of_kept (h : Eroded schema model.name gone before after) (hregular : schema.Regular)
    (hmodel : model ∈ schema.models) {relationship : Relationship}
    (hmem : relationship ∈ model.relationships.values) (hown : relationship.isOwn)
    (heffect : Deletion.effectOf relationship = .cascade ∨
      Deletion.effectOf relationship = .restrict) :
    after.get? relationship.name = before.get? relationship.name := by
  obtain ⟨lost, -, heq⟩ := h.get? relationship.name
  have hsame : schema.remaining lost model.name relationship.name = id := by
    funext value
    rw [Schema.remaining_of_reference (hregular.reference?_own hmodel hmem hown)]
    exact relationship.remaining_of_kept heffect
  rw [heq, hsame, Option.map_id]
  rfl

end Record.Eroded

/-! ### References that have been dealt with -/

namespace Relationship

/-- A value that the removal of a record takes nothing from any more. -/
def Settled (relationship : Relationship) (key : RowKey) (value : Option Value) : Prop :=
  match Deletion.effectOf relationship with
  | .unlink => value.map (relationship.remaining [key]) = value
  | .clear | .cascade | .restrict => key.id.toValue.refersTo value = false

variable {relationship : Relationship} {key : RowKey}

theorem remaining_of_not_refersTo {value : Value} (htarget : relationship.target = key.model)
    (h : key.id.toValue.refersTo (some value) = false) :
    relationship.remaining [key] value = value := by
  rw [Value.refersTo_eq_holdsGone, ← htarget] at h
  exact relationship.remaining_of_not_holdsGone h

theorem refersTo_null {id : Identity} : id.toValue.refersTo (some .null) = false := by
  cases id <;> rfl

theorem Settled.of_not_refersTo {value : Option Value} (htarget : relationship.target = key.model)
    (h : key.id.toValue.refersTo value = false) : relationship.Settled key value := by
  unfold Settled
  split
  · cases value with
    | none => rfl
    | some value => exact congrArg some (remaining_of_not_refersTo htarget h)
  · exact h
  · exact h
  · exact h

theorem Settled.remaining {value : Value} (htarget : relationship.target = key.model)
    (h : relationship.Settled key (some value)) : relationship.remaining [key] value = value := by
  unfold Settled at h
  cases heffect : Deletion.effectOf relationship with
  | unlink =>
      rw [heffect] at h
      exact Option.some.inj h
  | clear | cascade | restrict =>
      rw [heffect] at h
      exact remaining_of_not_refersTo htarget h

theorem Settled.of_remaining {value : Option Value} (htarget : relationship.target = key.model)
    (heffect : Deletion.effectOf relationship = .unlink ∨
      Deletion.effectOf relationship = .clear) :
    relationship.Settled key (value.map (relationship.remaining [key])) := by
  unfold Settled
  rcases heffect with heffect | heffect
  · rw [heffect]
    dsimp only
    rw [Option.map_map]
    refine Option.map_congr fun old _ => ?_
    rw [Function.comp_apply, remaining_remaining]
    refine relationship.remaining_congr fun other => ?_
    rw [List.mem_append, or_self]
  · rw [heffect]
    dsimp only
    cases value with
    | none => rfl
    | some old =>
        rw [Option.map_some, relationship.remaining_of_clear heffect]
        split
        · exact refersTo_null
        · rename_i hheld
          rw [Value.refersTo_eq_holdsGone, ← htarget]
          exact Bool.eq_false_iff.mpr hheld

/-- What has been dealt with stays so while more is taken away. -/
theorem Settled.mono {value : Option Value} (h : relationship.Settled key value)
    (lost : List RowKey) : relationship.Settled key (value.map (relationship.remaining lost)) := by
  cases value with
  | none => exact h
  | some value =>
      unfold Settled at h ⊢
      cases heffect : Deletion.effectOf relationship with
      | unlink =>
          rw [heffect] at h
          have hfixed : relationship.remaining [key] value = value := Option.some.inj h
          refine congrArg some ?_
          rw [remaining_comm, hfixed]
      | clear =>
          rw [heffect] at h
          dsimp only [Option.map_some]
          rw [relationship.remaining_of_clear heffect]
          split
          · exact refersTo_null
          · exact h
      | cascade | restrict =>
          rw [heffect] at h
          dsimp only [Option.map_some]
          rw [relationship.remaining_of_kept (by simp [heffect])]
          exact h

end Relationship

end ModelSurface
