import ModelSurface.Proofs.Schema.Sound
import ModelSurface.Write.Planner

/-!
# Members of inputs

What an input may say about a record: values of its plain fields, and its relationships. Neither a
single reference that a record has to hold nor a value that it must have is passed over in silence.
-/

namespace ModelSurface

variable {schema : Schema} {model : Model} {kind : InputKind}

/-! ### Fields of input types -/

theorem mem_input_fields {field : InputField} (h : field ∈ (schema.input kind model).fields) :
    (∃ plain ∈ model.fields.values, InputField.ofField? kind plain = some field) ∨
      ∃ relationship ∈ model.relationships.values, ∃ target,
        schema.model? relationship.target = some target ∧
          field = InputField.ofRelationship kind relationship target.identity.kind := by
  rcases List.mem_append.mp h with hscalar | hrelation
  · exact .inl (List.mem_filterMap.mp hscalar)
  · right
    split at hrelation
    · cases hrelation
    · obtain ⟨relationship, hmem, hfound⟩ := List.mem_filterMap.mp hrelation
      obtain ⟨target, htarget, heq⟩ := Option.map_eq_some_iff.mp hfound
      exact ⟨relationship, hmem, target, htarget, heq.symm⟩

theorem ofField?_eq_some {plain : Field} {field : InputField}
    (h : InputField.ofField? kind plain = some field) :
    field.name = plain.name ∧ field.shape = .scalar plain.kind plain.list ∧
      field.acceptsNull = plain.nullable ∧ (plain.identity = true → kind ≠ .create) ∧
      (plain.identity = false → plain.computed = none) := by
  unfold InputField.ofField? at h
  by_cases hidentity : plain.identity = true
  · rw [if_pos hidentity] at h
    by_cases hcreate : kind = .create
    · rw [if_pos hcreate] at h
      cases h
    · rw [if_neg hcreate] at h
      rw [← Option.some.inj h]
      refine ⟨rfl, rfl, rfl, fun _ => hcreate, ?_⟩
      intro hordinary
      rw [hidentity] at hordinary
      cases hordinary
  · rw [if_neg hidentity] at h
    split at h
    · cases h
    · rename_i hassigned
      rw [← Option.some.inj h]
      refine ⟨rfl, rfl, rfl, fun hsome => absurd hsome hidentity, fun _ => ?_⟩
      simpa using (not_or.mp hassigned).2

/-- A plain field that callers give is a field of the inputs for records. -/
theorem ofField?_given (hkind : kind ≠ .delete) {plain : Field} (hidentity : plain.identity = false)
    (hcomputed : plain.computed = none) : ∃ field,
      InputField.ofField? kind plain = some field ∧ field.name = plain.name ∧
        field.shape = .scalar plain.kind plain.list ∧
        field.required = (kind = .create && !plain.isOptional) := by
  unfold InputField.ofField?
  rw [if_neg (by rw [hidentity]; exact Bool.false_ne_true), if_neg (by simp [hkind, hcomputed])]
  exact ⟨_, rfl, rfl, rfl, rfl⟩

theorem field?_mem {type : InputType} {name : String} {field : InputField}
    (h : type.field? name = some field) : field ∈ type.fields ∧ field.name = name := by
  have hname := List.find?_some h
  exact ⟨List.mem_of_find?_eq_some h, beq_iff_eq.mp hname⟩

/-- A relationship is a field of every input but that of a deletion. -/
theorem field?_relationship (h : schema.Sound) (hmodel : model ∈ schema.models)
    (hkind : kind ≠ .delete) {relationship : Relationship}
    (hmem : relationship ∈ model.relationships.values) {target : Model}
    (htarget : schema.model? relationship.target = some target) :
    (schema.input kind model).field? relationship.name =
      some (InputField.ofRelationship kind relationship target.identity.kind) := by
  have hsound := h.model model hmodel
  have hfield : InputField.ofRelationship kind relationship target.identity.kind ∈
      (schema.input kind model).fields := by
    refine List.mem_append_right _ ?_
    rw [if_neg hkind]
    refine List.mem_filterMap.mpr ⟨relationship, hmem, ?_⟩
    rw [htarget]
    rfl
  have hsome : ((schema.input kind model).field? relationship.name).isSome :=
    List.find?_isSome.mpr ⟨_, hfield, beq_self_eq_true _⟩
  obtain ⟨found, hfound⟩ := Option.isSome_iff_exists.mp hsome
  obtain ⟨hfields, hname⟩ := field?_mem hfound
  rw [hfound]
  rcases mem_input_fields hfields with ⟨plain, hplain, hscalar⟩ | ⟨other, hother, _, hother_target,
    rfl⟩
  · have hnot := hsound.not_mem_fields hmem
    refine absurd (hsound.fields_named.mem_keys.mpr ⟨plain, hplain, ?_⟩) hnot
    rw [← (ofField?_eq_some hscalar).1, hname]
  · obtain rfl := hsound.relationship_ext hmem hother hname
    rw [htarget] at hother_target
    rw [Option.some.inj hother_target]

/-- A plain field that callers give is found by its name in the input for a record. -/
theorem field?_plain (schema : Schema) (hkind : kind ≠ .delete) (h : model.Sound) {plain : Field}
    (hmem : plain ∈ model.plain.values) (hcomputed : plain.computed = none) : ∃ field,
      (schema.input kind model).field? plain.name = some field ∧
        field ∈ (schema.input kind model).fields ∧
        field.shape = .scalar plain.kind plain.list ∧
        field.required = (kind = .create && !plain.isOptional) := by
  obtain ⟨field, hfield, hname, hshape, hrequired⟩ :=
    ofField?_given hkind (h.ordinary plain hmem).1 hcomputed
  have hfields : field ∈ (schema.input kind model).fields :=
    List.mem_append_left _ (List.mem_filterMap.mpr ⟨plain, List.mem_cons_of_mem _ hmem, hfield⟩)
  have hsome : ((schema.input kind model).field? plain.name).isSome :=
    List.find?_isSome.mpr ⟨field, hfields, beq_iff_eq.mpr hname⟩
  obtain ⟨found, hfound⟩ := Option.isSome_iff_exists.mp hsome
  obtain ⟨hfound_mem, hfound_name⟩ := field?_mem hfound
  rw [hfound]
  rcases mem_input_fields hfound_mem with
    ⟨other, hother, hscalar⟩ | ⟨relationship, hrelation, _, _, rfl⟩
  · have hsame : other.name = plain.name := by rw [← (ofField?_eq_some hscalar).1, hfound_name]
    obtain rfl : other = plain := by
      rcases List.mem_cons.mp hother with rfl | hplain
      · exact absurd hsame.symm (h.ordinary plain hmem).2
      · have hget := h.plain.get?_eq_some.mpr ⟨hplain, hsame⟩
        rw [h.plain.get?_eq_some.mpr ⟨hmem, rfl⟩] at hget
        exact (Option.some.inj hget).symm
    rw [hfield] at hscalar
    obtain rfl := Option.some.inj hscalar
    exact ⟨field, rfl, hfields, hshape, hrequired⟩
  · refine absurd (h.fields_named.mem_keys.mpr ⟨plain, ?_, hfound_name.symm⟩)
      (h.not_mem_fields hrelation)
    exact List.mem_cons_of_mem _ hmem

/-! ### Reading members -/

namespace InputEntry

variable {linkedBy : Option String} {name : String} {json : Json}

theorem read_scalar_field {type : InputType} {value : Value}
    (h : read model type linkedBy name json = .scalar value) :
    ¬ (type.kind = .update ∧ name = model.identity.name) ∧
      ∃ field kind list, type.field? name = some field ∧ field.shape = .scalar kind list ∧
        (json.isNull = true → field.acceptsNull = true) ∧
        Value.ofJson kind list json = .ok value := by
  unfold read at h
  split at h
  · cases h
  · rename_i hread
    refine ⟨fun hidentity => hread (.inr hidentity), ?_⟩
    split at h
    · cases h
    · rename_i field hfield
      split at h
      · cases h
      · split at h
        · cases h
        · rename_i hnull
          split at h
          · rename_i kind list hshape
            split at h
            · rename_i found hfound
              injection h with heq
              refine ⟨field, kind, list, hfield, hshape, ?_, heq ▸ hfound⟩
              intro hjson
              simpa [hjson] using hnull
            · cases h
          · split at h <;> cases h

theorem read_relation_field {type : InputType} {relationship : Relationship}
    (h : read model type linkedBy name json = .relation relationship) :
    model.relationship? name = some relationship ∧
      ∃ field relation, type.field? name = some field ∧ field.shape = .relation relation ∧
        (json.isNull = true → field.acceptsNull = true) := by
  unfold read at h
  split at h
  · cases h
  · split at h
    · cases h
    · rename_i field hfield
      split at h
      · cases h
      · split at h
        · cases h
        · rename_i hnull
          have haccepts : json.isNull = true → field.acceptsNull = true := by
            intro hjson
            by_contra hrefused
            apply hnull
            rw [hjson, Bool.eq_false_iff.mpr hrefused]
            rfl
          split at h
          · split at h <;> cases h
          · rename_i relation hshape
            split at h
            · rename_i found hfound
              injection h with heq
              exact ⟨heq ▸ hfound, field, relation, hfield, hshape, haccepts⟩
            · cases h

/-- The values of an input are for plain fields which callers give, and read as those say. -/
theorem plain_of_read (h : model.Sound) (hkind : kind ≠ .delete) {value : Value}
    (hread : read model (schema.input kind model) linkedBy name json = .scalar value) :
    ∃ plain ∈ model.plain.values, plain.name = name ∧ plain.computed = none ∧
      (json.isNull = true → plain.nullable = true) ∧
      Value.ofJson plain.kind plain.list json = .ok value := by
  obtain ⟨hidentity, field, _, _, hfield, hshape, hnull, hvalue⟩ := read_scalar_field hread
  obtain ⟨hmem, rfl⟩ := field?_mem hfield
  rcases mem_input_fields hmem with ⟨plain, hplain, hscalar⟩ | ⟨_, _, _, _, rfl⟩
  · obtain ⟨hname, hscalar_shape, haccepts, hassigned, hgiven⟩ := ofField?_eq_some hscalar
    rw [hscalar_shape] at hshape
    obtain ⟨rfl, rfl⟩ := InputShape.scalar.inj hshape
    rcases List.mem_cons.mp hplain with rfl | hother
    · have hcreate : kind ≠ .create := hassigned h.identity.identity
      refine absurd ⟨?_, hname⟩ hidentity
      cases kind with
      | create => exact absurd rfl hcreate
      | update => rfl
      | delete => exact absurd rfl hkind
    · rw [haccepts] at hnull
      exact ⟨plain, hother, hname.symm, hgiven (h.ordinary plain hother).1, hnull, hvalue⟩
  · cases hshape

/-- The values of an input are values that may stand in plain fields which callers give. -/
theorem admits_of_read (h : model.Sound) (hkind : kind ≠ .delete) {value : Value}
    (hread : read model (schema.input kind model) linkedBy name json = .scalar value) :
    ∃ plain ∈ model.plain.values, plain.name = name ∧ plain.computed = none ∧
      plain.Admits value := by
  obtain ⟨plain, hmem, hname, hcomputed, hnull, hvalue⟩ := plain_of_read h hkind hread
  obtain ⟨hfits, hvalue_null⟩ := Value.fits_ofJson hvalue
  exact ⟨plain, hmem, hname, hcomputed, hfits, fun hisNull => hnull (hvalue_null hisNull)⟩

/-- A relationship that is given as null is a single reference that may be null. -/
theorem null_of_read (h : model.Sound) {relationship : Relationship}
    (hread : read model (schema.input kind model) linkedBy name json = .relation relationship) :
    relationship ∈ model.relationships.values ∧ relationship.name = name ∧
      (json.isNull = true → relationship.isForeignKey = true ∧ relationship.nullable = true) := by
  obtain ⟨hfound, field, relation, hfield, hshape, haccepts⟩ := read_relation_field hread
  obtain ⟨hmem, hname⟩ := h.relationship?_eq_some.mp hfound
  refine ⟨hmem, hname, ?_⟩
  intro hnull
  obtain ⟨hfields, hfield_name⟩ := field?_mem hfield
  rcases mem_input_fields hfields with ⟨plain, _, hscalar⟩ | ⟨other, hother, _, _, rfl⟩
  · rw [(ofField?_eq_some hscalar).2.1] at hshape
    cases hshape
  · rw [← h.relationship_ext hmem hother (hfield_name.trans hname.symm)]
    exact Bool.and_eq_true_iff.mp (haccepts hnull)

theorem name_ne_labelKey {name : String} (h : Naming.Unreserved name) : name ≠ labelKey := by
  rintro rfl
  exact absurd h (by decide)

/-- A member for a relationship is read as such, unless the object around it sets that relationship
or it is null where it must not be. -/
theorem read_relationship (h : schema.Sound) (hmodel : model ∈ schema.models)
    (hkind : kind ≠ .delete) {relationship : Relationship}
    (hmem : relationship ∈ model.relationships.values) {target : Model}
    (htarget : schema.model? relationship.target = some target) :
    read model (schema.input kind model) linkedBy relationship.name json =
      if linkedBy = some relationship.name then .wrong .enclosing
      else if json.isNull && !(relationship.isForeignKey && relationship.nullable) then .wrong .null
      else .relation relationship := by
  have hsound := h.model model hmodel
  have hread : ¬ (relationship.name = labelKey ∨
      ((schema.input kind model).kind = .update ∧ relationship.name = model.identity.name)) := by
    rintro (hlabel | ⟨-, hidentity⟩)
    · exact name_ne_labelKey (hsound.unreserved_relationship hmem) hlabel
    · apply hsound.not_mem_fields hmem
      rw [hidentity]
      exact List.mem_cons_self
  unfold read
  rw [if_neg hread, field?_relationship h hmodel hkind hmem htarget,
    hsound.relationship?_eq_some.mpr ⟨hmem, rfl⟩]
  rfl

/-- A member for a relationship that the model holds is read as such, or reported. -/
theorem read_own (h : schema.Sound) (hmodel : model ∈ schema.models) (hkind : kind ≠ .delete)
    {relationship : Relationship} (hmem : relationship ∈ model.relationships.values)
    (hown : relationship.isOwn) :
    read model (schema.input kind model) linkedBy relationship.name json = .relation relationship ∨
      ∃ fault, read model (schema.input kind model) linkedBy relationship.name json =
        .wrong fault := by
  obtain ⟨-, -, target, htarget⟩ := h.own model hmodel relationship hmem hown
  rw [read_relationship h hmodel hkind hmem htarget]
  split
  · exact .inr ⟨_, rfl⟩
  · split
    · exact .inr ⟨_, rfl⟩
    · exact .inl rfl

/-- A member for a plain field that callers give is read as a value, or reported. -/
theorem read_plain (schema : Schema) (linkedBy : Option String) (json : Json)
    (hkind : kind ≠ .delete) (h : model.Sound) {plain : Field}
    (hmem : plain ∈ model.plain.values) (hcomputed : plain.computed = none) :
    (∃ value, read model (schema.input kind model) linkedBy plain.name json = .scalar value) ∨
      ∃ fault, read model (schema.input kind model) linkedBy plain.name json = .wrong fault := by
  obtain ⟨field, hfield, -, hshape, -⟩ := field?_plain schema hkind h hmem hcomputed
  have hlabel : plain.name ≠ labelKey :=
    name_ne_labelKey (Naming.unreserved_of_valid
      (h.valid _ (h.plain.mem_keys.mpr ⟨plain, hmem, rfl⟩)))
  have hread : ¬ (plain.name = labelKey ∨ ((schema.input kind model).kind = .update ∧
      plain.name = model.identity.name)) := by
    rintro (heq | ⟨-, hidentity⟩)
    · exact hlabel heq
    · exact (h.ordinary plain hmem).2 hidentity
  unfold read
  rw [if_neg hread, hfield]
  dsimp only
  rw [hshape]
  dsimp only
  split
  · exact .inr ⟨_, rfl⟩
  · split
    · exact .inr ⟨_, rfl⟩
    · split
      · exact .inl ⟨_, rfl⟩
      · exact .inr ⟨_, rfl⟩

theorem mem_entries_values {type : InputType} {members : List (String × Json)} {value : Value}
    (h : (name, value) ∈ (values model type linkedBy members).entries) :
    ∃ json, (name, json) ∈ members ∧ read model type linkedBy name json = .scalar value := by
  obtain ⟨⟨member, json⟩, hmem, hfound⟩ := List.mem_filterMap.mp (Keyed.mem_entries_ofList h)
  dsimp only at hfound
  split at hfound
  · rename_i found hread
    obtain ⟨rfl, rfl⟩ := Prod.mk.inj (Option.some.inj hfound)
    exact ⟨json, hmem, hread⟩
  · cases hfound

theorem mem_keys_values {type : InputType} {members : List (String × Json)} {value : Value}
    (hmem : (name, json) ∈ members) (h : read model type linkedBy name json = .scalar value) :
    name ∈ (values model type linkedBy members).keys := by
  unfold values
  apply Keyed.mem_keys_ofList.mpr
  refine List.mem_map.mpr ⟨(name, value), List.mem_filterMap.mpr ⟨(name, json), hmem, ?_⟩, rfl⟩
  dsimp only
  rw [h]

end InputEntry

end ModelSurface
