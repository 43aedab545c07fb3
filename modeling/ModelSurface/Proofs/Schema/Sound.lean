import ModelSurface.Proofs.Deletion.Erosion
import ModelSurface.Proofs.Schema.Drafts
import ModelSurface.Surface.Schema

/-!
# Sound schemas

What every schema that a registry has a right to is like: models and relationships are found by
their names only, and relationships lead from one model with records to another.
-/

namespace ModelSurface

namespace Introspection

section Drafts

variable {drafts : List Draft} (hsound : ∀ draft ∈ drafts, draft.Sound)
  (hnames : (drafts.map (·.model.name)).Nodup)

/-- The models before any other side is added. -/
def settled (drafts : List Draft) : Keyed Model :=
  Keyed.ofList (drafts.map fun draft => (draft.model.name, draft.settle drafts))

theorem settled_eq (drafts : List Draft) : settled drafts = Keyed.ofList
    ((drafts.map (Draft.settle drafts)).map fun model => (model.name, model)) := by
  unfold settled
  rw [List.map_map]
  rfl

theorem named_settled (drafts : List Draft) : (settled drafts).NamedBy Model.name := by
  rw [settled_eq]
  exact .ofList _

include hnames in
theorem get?_settled {draft : Draft} (hdraft : draft ∈ drafts) :
    (settled drafts).get? draft.model.name = some (draft.settle drafts) := by
  refine (named_settled drafts).get?_eq_some.mpr ⟨?_, rfl⟩
  rw [settled_eq, Keyed.values_ofList]
  · exact List.mem_map.mpr ⟨draft, hdraft, rfl⟩
  · rw [List.map_map]
    exact hnames

theorem exists_draft_of_get?_settled {name : String} {model : Model}
    (h : (settled drafts).get? name = some model) :
    ∃ draft ∈ drafts, model = draft.settle drafts := by
  obtain ⟨entry, hentry, rfl⟩ := Keyed.mem_values_ofList (Keyed.mem_values_of_get? h)
  obtain ⟨draft, hdraft, rfl⟩ := List.mem_map.mp hentry
  exact ⟨draft, hdraft, rfl⟩

include hnames in
theorem concrete_settled {relation : RelationDef} (h : Draft.isKnown drafts relation) :
    Concrete (settled drafts) relation.target := by
  obtain ⟨draft, hdraft, hboth⟩ := List.any_eq_true.mp h
  obtain ⟨hname, hconcrete⟩ := Bool.and_eq_true_iff.mp hboth
  rw [← beq_iff_eq.mp hname]
  exact ⟨_, get?_settled hnames hdraft, Bool.not_eq_true' _ |>.mp hconcrete⟩

include hsound hnames

theorem sound_settled : Sound (settled drafts) where
  named := named_settled drafts
  model name model hfound := by
    obtain ⟨draft, hdraft, rfl⟩ := exists_draft_of_get?_settled hfound
    exact (hsound draft hdraft).settle drafts
  own name field relationship hside hown := by
    obtain ⟨model, hmodel, hfound⟩ := Option.bind_eq_some_iff.mp hside
    obtain ⟨draft, hdraft, rfl⟩ := exists_draft_of_get?_settled hmodel
    have hname := ((draft.named_settle drafts).get?_eq_some.mp hfound).2
    obtain ⟨relation, hrelation, rfl⟩ :=
      Draft.mem_relationships_settle (Keyed.mem_values_of_get? hfound)
    obtain ⟨hdeclared, hknown⟩ := List.mem_filter.mp hrelation
    refine ⟨?_, ?_, concrete_settled hnames hknown⟩
    · rw [← hname]
      exact (hsound draft hdraft).valid relation hdeclared
    change relation.kind.cardinality ≠ .oneToMany
    cases relation.kind <;> simp [RelationKind.cardinality]
  remote name field relationship other hside hremote := by
    obtain ⟨model, hmodel, hfound⟩ := Option.bind_eq_some_iff.mp hside
    obtain ⟨draft, hdraft, rfl⟩ := exists_draft_of_get?_settled hmodel
    obtain ⟨relation, hrelation, rfl⟩ :=
      Draft.mem_relationships_settle (Keyed.mem_values_of_get? hfound)
    cases hremote

theorem declared_of_reversible {declared : String × RelationDef}
    (h : declared ∈ drafts.flatMap (Draft.reversible drafts)) :
    Declared (settled drafts) declared := by
  obtain ⟨draft, hdraft, hmem⟩ := List.mem_flatMap.mp h
  unfold Draft.reversible at hmem
  split at hmem
  · cases hmem
  · rename_i hconcrete
    obtain ⟨relation, hrelation, rfl⟩ := List.mem_map.mp hmem
    have hmodel := get?_settled hnames hdraft
    have hdraft_sound := hsound draft hdraft
    refine ⟨⟨_, hmodel, Bool.eq_false_iff.mpr hconcrete⟩, ?_, Relationship.own relation, ?_, rfl,
      rfl, rfl⟩
    · exact (hdraft_sound.templates relation (List.mem_filter.mp hrelation).1).reverseName
        hdraft_sound.name
    unfold side?
    rw [hmodel, Option.bind_some]
    exact Draft.relationship?_settle (hsound draft hdraft) hrelation

theorem sound_ofDrafts (issues : List Issue) : Sound (ofDrafts drafts issues).models :=
  (addReverses_keep (sound_settled hsound hnames) fun _ hmem =>
    declared_of_reversible hsound hnames hmem).1

end Drafts

end Introspection

theorem Registry.sound_introspect {registry : Registry} {found : Introspection}
    (h : registry.introspect = .ok found) : Introspection.Sound found.models := by
  unfold Registry.introspect at h
  split at h
  · cases h
  · rename_i hnames
    rw [← Except.ok.inj h]
    have hmembers : ∀ model members, (model, .ok members) ∈ Members.ofModels registry.models →
        Members.ValidNames model ∧ members.Sound := fun _ _ hmem => Members.sound_of_ofModels hmem
    have hdrafts := Draft.ofModels_sound hmembers
    have hdistinct : ((Members.ofModels registry.models).map (·.1.name)).Nodup := by
      unfold Members.ofModels
      rw [List.map_map]
      exact Naming.firstRepeated_eq_none_iff.mp hnames
    exact Introspection.sound_ofDrafts hdrafts.1 (hdistinct.sublist hdrafts.2) _

/-! ### Sound models -/

namespace Model.Sound

variable {model : Model}

/-- All fields together are told apart by their names. -/
theorem fields_named (h : model.Sound) : model.fields.NamedBy Field.name where
  distinct := by
    refine List.nodup_cons.mpr ⟨?_, h.plain.distinct⟩
    intro hmem
    obtain ⟨field, hfield, hname⟩ := h.plain.mem_keys.mp hmem
    exact (h.ordinary field hfield).2 hname
  named entry hentry := by
    rcases List.mem_cons.mp hentry with rfl | hplain
    · rfl
    · exact h.plain.named entry hplain

theorem mem_fields_keys (h : model.Sound) {field : Field}
    (hfield : field ∈ model.fields.values) : field.name ∈ model.fields.keys :=
  h.fields_named.mem_keys.mpr ⟨field, hfield, rfl⟩

/-- Fields are told apart by their names. -/
theorem field_ext (h : model.Sound) {field other : Field}
    (hfield : field ∈ model.fields.values) (hother : other ∈ model.fields.values)
    (hname : other.name = field.name) : other = field :=
  List.inj_on_of_nodup_map h.fields_named.nodup_names hother hfield hname

theorem not_mem_fields (h : model.Sound) {relationship : Relationship}
    (hmem : relationship ∈ model.relationships.values) :
    relationship.name ∉ model.fields.keys := by
  apply h.apart
  exact h.relationships.mem_keys.mpr ⟨relationship, hmem, rfl⟩

theorem unreserved_relationship (h : model.Sound) {relationship : Relationship}
    (hmem : relationship ∈ model.relationships.values) : Naming.Unreserved relationship.name := by
  apply h.unreserved
  exact h.relationships.mem_keys.mpr ⟨relationship, hmem, rfl⟩

theorem relationship?_eq_some (h : model.Sound) {name : String} {relationship : Relationship} :
    model.relationship? name = some relationship ↔
      relationship ∈ model.relationships.values ∧ relationship.name = name :=
  h.relationships.get?_eq_some

/-- Relationships are told apart by their names. -/
theorem relationship_ext (h : model.Sound) {relationship other : Relationship}
    (hmem : relationship ∈ model.relationships.values) (hother : other ∈ model.relationships.values)
    (hname : other.name = relationship.name) : other = relationship :=
  List.inj_on_of_nodup_map h.relationships.nodup_names hother hmem hname

/-- A plain field has a name that belongs to no relationship and not to the identity. -/
theorem plain_apart (h : model.Sound) {name : String} (hname : name ∈ model.plain.keys) :
    name ≠ model.identity.name ∧ ∀ relationship ∈ model.relationships.values,
      relationship.name ≠ name := by
  constructor
  · obtain ⟨field, hfield, rfl⟩ := h.plain.mem_keys.mp hname
    exact (h.ordinary field hfield).2
  · intro relationship hmem heq
    have hfields : name ∈ model.fields.keys := List.mem_cons_of_mem _ hname
    exact h.not_mem_fields hmem (heq ▸ hfields)

/-- The fields that callers give are plain ones. -/
theorem plain_of_given (h : model.Sound) {field : Field} (hfield : field ∈ model.fields.values)
    (hcomputed : field.computed = none) : field ∈ model.plain.values := by
  rcases List.mem_cons.mp hfield with rfl | hplain
  · obtain ⟨generator, hidentity⟩ := h.identity.computed
    rw [hidentity] at hcomputed
    cases hcomputed
  · exact hplain

end Model.Sound

/-! ### Sides of relationships -/

theorem Relationship.isOwn_iff {relationship : Relationship} :
    relationship.isOwn = true ↔ relationship.ownership = .own := by
  unfold isOwn
  cases relationship.ownership with
  | own => exact iff_of_true rfl rfl
  | remote field => exact iff_of_false Bool.false_ne_true nofun

/-- The own side of two that belong together holds a set exactly if both sides may lead to many. -/
theorem Relationship.isMany_of_flip {held remote : Relationship}
    (hcardinality : held.cardinality ≠ .oneToMany)
    (hflip : held.cardinality = remote.cardinality.flip) :
    held.isMany = decide (remote.cardinality = .manyToMany) := by
  unfold isMany
  rw [hflip] at hcardinality ⊢
  cases hcase : remote.cardinality with
  | manyToOne =>
      rw [hcase] at hcardinality
      exact absurd rfl hcardinality
  | oneToOne | oneToMany | manyToMany => rfl

/-! ### Sound schemas -/

namespace Schema

structure Sound (schema : Schema) : Prop where
  model?_eq_some : ∀ {name model},
    schema.model? name = some model ↔ model ∈ schema.models ∧ model.name = name
  model : ∀ model ∈ schema.models, model.Sound
  own : ∀ model ∈ schema.models, ∀ relationship ∈ model.relationships.values,
    relationship.isOwn → Naming.isValid relationship.name ∧
      relationship.cardinality ≠ .oneToMany ∧
      ∃ target, schema.model? relationship.target = some target
  remote : ∀ model ∈ schema.models, ∀ relationship ∈ model.relationships.values, ∀ field,
    relationship.ownership = .remote field →
      ∃ target held, schema.model? relationship.target = some target ∧
        target.relationship? field = some held ∧ held.isOwn ∧ held.target = model.name ∧
        held.cardinality = relationship.cardinality.flip

variable {schema : Schema}

theorem model?_eq_some_of_sound (h : Introspection.Sound schema.descriptors) {name : String}
    {model : Model} :
    schema.model? name = some model ↔ model ∈ schema.models ∧ model.name = name := by
  unfold model? models
  rw [Option.filter_eq_some_iff, h.named.get?_eq_some, List.mem_filter, and_right_comm]

theorem model?_of_concrete {name : String}
    (h : Introspection.Concrete schema.descriptors name) :
    ∃ model, schema.descriptors.get? name = some model ∧ schema.model? name = some model := by
  obtain ⟨model, hfound, hconcrete⟩ := h
  refine ⟨model, hfound, ?_⟩
  unfold model?
  rw [hfound]
  exact Option.filter_some_pos (by rw [hconcrete]; rfl)

theorem sound_of_introspection (h : Introspection.Sound schema.descriptors) : schema.Sound := by
  have hget : ∀ model ∈ schema.models, schema.descriptors.get? model.name = some model := by
    intro model hmodel
    exact h.named.get?_eq_some.mpr ⟨(List.mem_filter.mp hmodel).1, rfl⟩
  have hside : ∀ model ∈ schema.models, ∀ relationship ∈ model.relationships.values,
      Introspection.side? schema.descriptors model.name relationship.name = some relationship := by
    intro model hmodel relationship hmem
    unfold Introspection.side?
    rw [hget model hmodel, Option.bind_some]
    exact (h.model _ _ (hget model hmodel)).relationships.get?_eq_some.mpr ⟨hmem, rfl⟩
  refine ⟨model?_eq_some_of_sound h, fun model hmodel => h.model _ _ (hget model hmodel), ?_, ?_⟩
  · intro model hmodel relationship hmem hown
    obtain ⟨hvalid, hcardinality, hconcrete⟩ :=
      h.own _ _ _ (hside model hmodel relationship hmem) hown
    obtain ⟨target, -, htarget⟩ := model?_of_concrete hconcrete
    exact ⟨hvalid, hcardinality, target, htarget⟩
  · intro model hmodel relationship hmem field hremote
    obtain ⟨hconcrete, held, hheld, hown, htarget, hcardinality⟩ :=
      h.remote _ _ _ field (hside model hmodel relationship hmem) hremote
    obtain ⟨target, hfound, hmodel_target⟩ := model?_of_concrete hconcrete
    unfold Introspection.side? at hheld
    rw [hfound, Option.bind_some] at hheld
    exact ⟨target, held, hmodel_target, hheld, hown, htarget, hcardinality⟩

/-- Models are told apart by their names. -/
theorem Sound.model_ext (h : schema.Sound) {model other : Model} (hmodel : model ∈ schema.models)
    (hother : other ∈ schema.models) (hname : other.name = model.name) : other = model := by
  have hfound := h.model?_eq_some.mpr ⟨hother, hname⟩
  rw [h.model?_eq_some.mpr ⟨hmodel, rfl⟩] at hfound
  exact (Option.some.inj hfound).symm

/-- A relationship that another model holds is known there. -/
theorem Sound.held_of_remote (h : schema.Sound) {model target : Model}
    {relationship : Relationship} {field : String} (hmodel : model ∈ schema.models)
    (hmem : relationship ∈ model.relationships.values)
    (htarget : schema.model? relationship.target = some target)
    (hremote : relationship.ownership = .remote field) :
    ∃ held ∈ target.relationships.values, held.name = field ∧ held.isOwn ∧
      held.target = model.name ∧
      held.isMany = decide (relationship.cardinality = .manyToMany) := by
  obtain ⟨found, held, hfound, hheld, hown, hback, hflip⟩ :=
    h.remote model hmodel relationship hmem field hremote
  obtain rfl := Option.some.inj (htarget.symm.trans hfound)
  have htarget_mem := (h.model?_eq_some.mp htarget).1
  obtain ⟨hheld_mem, hname⟩ := (h.model target htarget_mem).relationship?_eq_some.mp hheld
  obtain ⟨-, hcardinality, -⟩ := h.own target htarget_mem held hheld_mem hown
  exact ⟨held, hheld_mem, hname, hown, hback, Relationship.isMany_of_flip hcardinality hflip⟩

/-- The relationships of sound schemas are told apart as removals rely on. -/
theorem Sound.regular (h : schema.Sound) : schema.Regular where
  model?_eq_some := h.model?_eq_some
  relationship?_eq_some hmodel := (h.model _ hmodel).relationships.get?_eq_some
  identity model hmodel := by
    refine Option.not_isSome_iff_eq_none.mp fun hsome => ?_
    exact (h.model model hmodel).apart _ (Keyed.isSome_get?_iff.mp hsome) List.mem_cons_self

end Schema

namespace Registry

variable {registry : Registry} {schema : Schema}

/-- The schema of a registry holds what its models are introspected as. -/
theorem exists_introspection (h : registry.schema = .ok schema) :
    ∃ found, registry.introspect = .ok found ∧
      schema = ⟨registry.options, found.models, found.issues⟩ := by
  unfold Registry.schema at h
  obtain ⟨found, hfound, hrest⟩ := except_bind_eq_ok.mp h
  dsimp only at hrest
  split at hrest
  · cases hrest
  · exact ⟨found, hfound, (Except.ok.inj hrest).symm⟩

/-- Every registry that has a schema has a sound one. -/
theorem sound_schema (h : registry.schema = .ok schema) : schema.Sound := by
  obtain ⟨found, hfound, rfl⟩ := exists_introspection h
  exact Schema.sound_of_introspection (registry.sound_introspect hfound)

/-- What the models of a registry are introspected as, whether or not names clash. -/
def introspected (registry : Registry) : Schema :=
  match registry.introspect with
  | .ok found => ⟨registry.options, found.models, found.issues⟩
  | .error _ => {}

/-- Where names do not clash, the schema can be had without a look at them. -/
theorem schema_eq_introspected (h : registry.schema.isOk = true) :
    registry.schema = .ok registry.introspected := by
  cases hschema : registry.schema with
  | error conflict =>
      rw [hschema] at h
      cases h
  | ok schema =>
      obtain ⟨found, hfound, rfl⟩ := exists_introspection hschema
      unfold introspected
      rw [hfound]

end Registry

end ModelSurface
