import ModelSurface.Proofs.Deletion.Erosion
import ModelSurface.Proofs.Schema.Sound

/-!
# Linked tables

Tables in which every reference that a record holds leads to a stored record, and no reference is
missing that may not be.
-/

namespace ModelSurface

/-- A value that is held under a relationship: a set of links to stored records, or a single
reference, which is null only if it may be, or leads to a stored record. -/
def Relationship.HoldsIn (relationship : Relationship) (tables : Tables) (value : Option Value) :
    Prop :=
  if relationship.isMany then
    ∃ ids : List Identity, value = some (.list (ids.map Identity.toValue)) ∧
      ∀ id ∈ ids, (tables.get? relationship.target id).isSome
  else
    (value = some .null ∧ relationship.nullable) ∨
      ∃ id : Identity, value = some id.toValue ∧ (tables.get? relationship.target id).isSome

/-- Each reference that a record of a model holds leads to a stored record. -/
def Record.Linked (model : Model) (tables : Tables) (record : Record) : Prop :=
  ∀ relationship ∈ model.relationships.values, relationship.isOwn →
    relationship.HoldsIn tables (record.get? relationship.name)

/-- Every record of every model is linked. -/
def Tables.Linked (schema : Schema) (tables : Tables) : Prop :=
  ∀ model ∈ schema.models, ∀ id record, tables.get? model.name id = some record →
    record.Linked model tables

/-- Nothing that was stored is gone. -/
def Tables.Retains (before after : Tables) : Prop :=
  ∀ model id, (before.get? model id).isSome → (after.get? model id).isSome

/-- The same records are stored, whatever numbers have been drawn. -/
def Tables.SameRecords (before after : Tables) : Prop :=
  ∀ model id, after.get? model id = before.get? model id

/-- What holds of the tables between any two mutations. -/
structure Tables.Intact (schema : Schema) (tables : Tables) : Prop where
  identified : tables.Identified schema
  linked : tables.Linked schema

namespace Relationship.HoldsIn

variable {relationship : Relationship} {tables tables' : Tables} {value : Option Value}

theorem many {ids : List Identity} (hmany : relationship.isMany = true)
    (hids : ∀ id ∈ ids, (tables.get? relationship.target id).isSome) :
    relationship.HoldsIn tables (some (.list (ids.map Identity.toValue))) := by
  unfold HoldsIn
  rw [if_pos hmany]
  exact ⟨ids, rfl, hids⟩

theorem null (hsingle : relationship.isMany = false) (hnull : relationship.nullable = true) :
    relationship.HoldsIn tables (some .null) := by
  unfold HoldsIn
  rw [hsingle, if_neg Bool.false_ne_true]
  exact .inl ⟨rfl, hnull⟩

theorem single {id : Identity} (hsingle : relationship.isMany = false)
    (hid : (tables.get? relationship.target id).isSome) :
    relationship.HoldsIn tables (some id.toValue) := by
  unfold HoldsIn
  rw [hsingle, if_neg Bool.false_ne_true]
  exact .inr ⟨id, rfl, hid⟩

/-- What is held under a relationship, case by case. -/
theorem cases (h : relationship.HoldsIn tables value) :
    (relationship.isMany = true ∧ ∃ ids : List Identity,
      value = some (.list (ids.map Identity.toValue)) ∧
        ∀ id ∈ ids, (tables.get? relationship.target id).isSome) ∨
    (relationship.isMany = false ∧ value = some .null ∧ relationship.nullable = true) ∨
    relationship.isMany = false ∧ ∃ id : Identity, value = some id.toValue ∧
      (tables.get? relationship.target id).isSome := by
  unfold HoldsIn at h
  by_cases hmany : relationship.isMany = true
  · rw [if_pos hmany] at h
    exact .inl ⟨hmany, h⟩
  · rw [if_neg hmany] at h
    have hsingle : relationship.isMany = false := Bool.eq_false_iff.mpr hmany
    rcases h with ⟨hvalue, hnull⟩ | hid
    · exact .inr (.inl ⟨hsingle, hvalue, hnull⟩)
    · exact .inr (.inr ⟨hsingle, hid⟩)

theorem mono (h : relationship.HoldsIn tables value) (hretains : tables.Retains tables') :
    relationship.HoldsIn tables' value := by
  rcases h.cases with ⟨hmany, ids, rfl, hids⟩ | ⟨hsingle, rfl, hnull⟩ | ⟨hsingle, id, rfl, hid⟩
  · exact many hmany fun id hmem => hretains _ _ (hids id hmem)
  · exact null hsingle hnull
  · exact single hsingle (hretains _ _ hid)

end Relationship.HoldsIn

theorem Record.Linked.mono {model : Model} {tables tables' : Tables} {record : Record}
    (h : record.Linked model tables) (hretains : tables.Retains tables') :
    record.Linked model tables' := by
  intro relationship hmem hown
  exact (h relationship hmem hown).mono hretains

namespace Tables

variable {schema : Schema} {tables : Tables} {model : Model} {id : Identity} {record : Record}

theorem Retains.trans {before between after : Tables} (h : before.Retains between)
    (h' : between.Retains after) : before.Retains after :=
  fun name id hstored => h' name id (h name id hstored)

theorem SameRecords.retains {before after : Tables} (h : before.SameRecords after) :
    before.Retains after := by
  intro name id hstored
  rwa [h]

theorem SameRecords.trans {before between after : Tables} (h : before.SameRecords between)
    (h' : between.SameRecords after) : before.SameRecords after :=
  fun name id => (h' name id).trans (h name id)

theorem nodup_rows (tables : Tables) : tables.rows.Nodup := by
  refine List.Pairwise.imp ?_ tables.ordered
  rintro row _ hlt rfl
  have hself : row.1.compare row.1 = .eq := Std.ReflCmp.compare_self
  rw [hself] at hlt
  cases hlt

/-- Since rows are in order, tables are told by the records that are found in them. -/
theorem SameRecords.eq {before after : Tables} (h : before.SameRecords after)
    (hsequences : after.sequences = before.sequences) : after = before := by
  have hmem : ∀ row, row ∈ after.rows ↔ row ∈ before.rows := by
    rintro ⟨key, record⟩
    rw [mem_rows, mem_rows, h]
  have hrows : after.rows = before.rows := by
    refine List.Perm.eq_of_pairwise ?_ after.ordered before.ordered
      ((List.perm_ext_iff_of_nodup after.nodup_rows before.nodup_rows).mpr hmem)
    intro row other _ _ hlt hgt
    rw [Std.OrientedCmp.gt_iff_lt.mpr hlt] at hgt
    cases hgt
  cases before
  cases after
  congr

/-- A record that is put where it is already changes nothing. -/
theorem put_of_get? {name : String} (h : tables.get? name id = some record) :
    tables.put name id record = tables := by
  refine SameRecords.eq ?_ rfl
  intro other id'
  rw [get?_put]
  split
  · rename_i heq
    rw [heq.1, heq.2, h]
  · rfl

/-- Of two records that are put in one place, the second one stays. -/
theorem put_put (tables : Tables) (name : String) (id : Identity) (first second : Record) :
    (tables.put name id first).put name id second = tables.put name id second := by
  refine SameRecords.eq ?_ rfl
  intro other id'
  simp only [get?_put]
  split <;> rfl

theorem retains_put (tables : Tables) (name : String) (id : Identity) (record : Record) :
    tables.Retains (tables.put name id record) := by
  intro other id' hstored
  rw [get?_put]
  by_cases hsame : other = name ∧ id' = id
  · rw [if_pos hsame]
    rfl
  · rw [if_neg hsame]
    exact hstored

theorem intact_empty : Intact schema {} where
  identified := identified_empty
  linked model _ id record h := by cases h

theorem Intact.put (h : tables.Intact schema) (hschema : schema.Sound)
    (hmodel : model ∈ schema.models)
    (hidentity : Record.identity? record model.identity.name = some id)
    (hrecord : record.Linked model tables) : (tables.put model.name id record).Intact schema := by
  have hretains := tables.retains_put model.name id record
  refine ⟨h.identified.put ?_, ?_⟩
  · intro other hother hname
    rw [hschema.model_ext hmodel hother hname]
    exact hidentity
  · intro other hother id' found hfound
    rw [get?_put] at hfound
    by_cases hsame : other.name = model.name ∧ id' = id
    · rw [if_pos hsame] at hfound
      rw [← Option.some.inj hfound, hschema.model_ext hmodel hother hsame.1]
      exact hrecord.mono hretains
    · rw [if_neg hsame] at hfound
      exact (h.linked other hother id' found hfound).mono hretains

theorem Intact.sameRecords {after : Tables} (h : tables.Intact schema)
    (hsame : tables.SameRecords after) : after.Intact schema where
  identified model hmodel id record hrecord := by
    rw [hsame] at hrecord
    exact h.identified model hmodel id record hrecord
  linked model hmodel id record hrecord := by
    rw [hsame] at hrecord
    exact (h.linked model hmodel id record hrecord).mono hsame.retains

end Tables

end ModelSurface
