import ModelSurface.Proofs.Linked

/-!
# Described records

A record is as its model describes it when it has exactly the members of its model, in their order,
and each of its values may stand where it stands. Between calls it is enough to keep the fields:
what references hold follows from the records that they lead to.
-/

namespace ModelSurface

/-- The names of all that a record of a model holds: its fields, and then its references. -/
def Model.members (model : Model) : List String :=
  model.fields.keys ++ (model.relationships.values.filter (·.isOwn)).map Relationship.name

/-- What a record holds under a relationship whose target has identities of a kind. -/
def Relationship.HoldsOf (relationship : Relationship) (kind : Kind) (value : Option Value) :
    Prop :=
  if relationship.isMany then
    ∃ ids : List Identity, value = some (.list (ids.map Identity.toValue)) ∧
      ∀ id ∈ ids, id.IsOf kind
  else value = some .null ∨ ∃ id : Identity, value = some id.toValue ∧ id.IsOf kind

/-- A record as its model describes it. -/
structure Record.Conforms (schema : Schema) (model : Model) (id : Identity) (record : Record) :
    Prop where
  identity : record.get? model.identity.name = some id.toValue
  keys : record.keys = model.members
  distinct : record.keys.Nodup
  fields : ∀ field ∈ model.fields.values, ∃ value,
    record.get? field.name = some value ∧ field.Admits value
  references : ∀ relationship ∈ model.relationships.values, relationship.isOwn →
    ∃ target, schema.model? relationship.target = some target ∧
      relationship.HoldsOf target.identity.kind (record.get? relationship.name)

/-- Every stored record is as its model describes it. -/
def Tables.Conform (schema : Schema) (tables : Tables) : Prop :=
  ∀ model ∈ schema.models, ∀ id record, tables.get? model.name id = some record →
    record.Conforms schema model id

/-! ### What is kept between calls -/

/-- A record that has all members of its model, in their order, and in each field a value that may
stand there. -/
structure Record.Filled (model : Model) (record : Record) : Prop where
  keys : record.keys = model.members
  fields : ∀ field ∈ model.fields.values, ∃ value,
    record.get? field.name = some value ∧ field.Admits value

def Tables.Filled (schema : Schema) (tables : Tables) : Prop :=
  ∀ model ∈ schema.models, ∀ id record, tables.get? model.name id = some record →
    record.Filled model

/-- What holds of the tables between any two calls. -/
structure Tables.Described (schema : Schema) (tables : Tables) : Prop where
  intact : tables.Intact schema
  filled : tables.Filled schema

namespace Model

variable {model : Model}

theorem Sound.nodup_members (h : model.Sound) : model.members.Nodup := by
  refine List.nodup_append.mpr ⟨h.fields_named.distinct, ?_, ?_⟩
  · exact h.relationships.nodup_names.sublist (List.filter_sublist.map _)
  · rintro name hfield other hother rfl
    obtain ⟨relationship, hmem, rfl⟩ := List.mem_map.mp hother
    exact h.not_mem_fields (List.mem_filter.mp hmem).1 hfield

theorem mem_members_of_own {relationship : Relationship}
    (hmem : relationship ∈ model.relationships.values) (hown : relationship.isOwn) :
    relationship.name ∈ model.members := by
  apply List.mem_append_right
  exact List.mem_map.mpr ⟨relationship, List.mem_filter.mpr ⟨hmem, hown⟩, rfl⟩

/-- Identities of stored records are of the kind that their model asks for. -/
theorem Sound.isOf_identity (h : model.Sound) {record : Record} (hrecord : record.Filled model)
    {id : Identity} (hid : Record.identity? record model.identity.name = some id) :
    id.IsOf model.identity.kind := by
  obtain ⟨value, hvalue, hadmits⟩ := hrecord.fields model.identity List.mem_cons_self
  obtain ⟨found, hfound, hread⟩ := Option.bind_eq_some_iff.mp hid
  obtain rfl := Option.some.inj (hvalue.symm.trans hfound)
  obtain rfl := Identity.toValue_of_ofValue? hread
  obtain ⟨generator, hcomputed⟩ := h.identity.computed
  obtain ⟨hlist, -⟩ := (h.typed _ List.mem_cons_self).computed _ hcomputed
  have hfits := hadmits.fits
  rw [hlist] at hfits
  exact Value.isOf_of_fits hfits id.isNull_toValue

end Model

namespace Record.Filled

variable {model : Model} {record : Record}

/-- A value that may stand in a field is put there. -/
theorem putField (h : record.Filled model) (hmodel : model.Sound) {field : Field}
    (hfield : field ∈ model.fields.values) {value : Value} (hvalue : field.Admits value) :
    Record.Filled model (record.put field.name value) where
  keys := by
    have hmem : field.name ∈ record.keys := by
      rw [h.keys]
      exact List.mem_append_left _ (hmodel.mem_fields_keys hfield)
    rw [Keyed.keys_put_of_mem _ hmem, h.keys]
  fields other hother := by
    by_cases hname : other.name = field.name
    · rw [hmodel.field_ext hfield hother hname]
      exact ⟨value, Keyed.get?_put_self _ _ _, hvalue⟩
    · rw [Keyed.get?_put_of_ne _ _ hname]
      exact h.fields other hother

/-- A reference is set. -/
theorem putReference (h : record.Filled model) (hmodel : model.Sound)
    {relationship : Relationship} (hmem : relationship ∈ model.relationships.values)
    (hown : relationship.isOwn) (value : Value) :
    Record.Filled model (record.put relationship.name value) where
  keys := by
    have hkey : relationship.name ∈ record.keys := by
      rw [h.keys]
      exact Model.mem_members_of_own hmem hown
    rw [Keyed.keys_put_of_mem _ hkey, h.keys]
  fields field hfield := by
    have hname : field.name ≠ relationship.name := by
      intro heq
      apply hmodel.not_mem_fields hmem
      rw [← heq]
      exact hmodel.mem_fields_keys hfield
    rw [Keyed.get?_put_of_ne _ _ hname]
    exact h.fields field hfield

end Record.Filled

namespace Tables

variable {schema : Schema} {tables : Tables} {model : Model} {id : Identity} {record : Record}

theorem Filled.put (h : tables.Filled schema) (hschema : schema.Sound)
    (hmodel : model ∈ schema.models) (hrecord : record.Filled model) :
    (tables.put model.name id record).Filled schema := by
  intro other hother id' found hfound
  rw [get?_put] at hfound
  split at hfound
  · rename_i hsame
    rw [← Option.some.inj hfound, hschema.model_ext hmodel hother hsame.1]
    exact hrecord
  · exact h other hother id' found hfound

theorem Filled.sameRecords {after : Tables} (h : tables.Filled schema)
    (hsame : tables.SameRecords after) : after.Filled schema := by
  intro model hmodel id record hrecord
  rw [hsame] at hrecord
  exact h model hmodel id record hrecord

theorem described_empty : Described schema {} where
  intact := intact_empty
  filled model _ id record h := by cases h

/-- A link to a stored record has the kind of identity that the model of the record asks for. -/
theorem Described.isOf (h : tables.Described schema) (hschema : schema.Sound) {target : Model}
    (htarget : target ∈ schema.models) (hid : (tables.get? target.name id).isSome) :
    id.IsOf target.identity.kind := by
  obtain ⟨record, hrecord⟩ := Option.isSome_iff_exists.mp hid
  exact (hschema.model target htarget).isOf_identity (h.filled target htarget id record hrecord)
    (h.intact.identified target htarget id record hrecord)

theorem Described.conform (h : tables.Described schema) (hschema : schema.Sound) :
    tables.Conform schema := by
  intro model hmodel id record hrecord
  have hsound := hschema.model model hmodel
  have hfilled := h.filled model hmodel id record hrecord
  have hidentity := h.intact.identified model hmodel id record hrecord
  refine ⟨?_, hfilled.keys, ?_, hfilled.fields, ?_⟩
  · obtain ⟨value, hvalue, hread⟩ := Option.bind_eq_some_iff.mp hidentity
    rw [hvalue, Identity.toValue_of_ofValue? hread]
  · rw [hfilled.keys]
    exact hsound.nodup_members
  · intro relationship hmem hown
    obtain ⟨-, -, target, htarget⟩ := hschema.own model hmodel relationship hmem hown
    obtain ⟨htarget_mem, hname⟩ := hschema.model?_eq_some.mp htarget
    refine ⟨target, htarget, ?_⟩
    have hkind : ∀ other : Identity, (tables.get? relationship.target other).isSome →
        other.IsOf target.identity.kind := by
      intro other hother
      rw [← hname] at hother
      exact h.isOf hschema htarget_mem hother
    unfold Relationship.HoldsOf
    rcases (h.intact.linked model hmodel id record hrecord relationship hmem hown).cases with
      ⟨hmany, ids, hvalue, hids⟩ | ⟨hsingle, hvalue, -⟩ | ⟨hsingle, other, hvalue, hother⟩
    · rw [if_pos hmany]
      exact ⟨ids, hvalue, fun other hother => hkind other (hids other hother)⟩
    · rw [hsingle, if_neg Bool.false_ne_true]
      exact .inl hvalue
    · rw [hsingle, if_neg Bool.false_ne_true]
      exact .inr ⟨other, hvalue, hkind other hother⟩

end Tables

end ModelSurface
