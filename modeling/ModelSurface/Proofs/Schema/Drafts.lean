import ModelSurface.Proofs.Schema.Sides

/-!
# Drafts and the models they are settled to

The models with the relationships that they hold themselves, before any other side is added.
-/

namespace ModelSurface

namespace Draft

/-- What drafts take over from the members of a model. -/
structure Sound (draft : Draft) : Prop where
  identity : draft.model.identity.IsIdentity
  plain : draft.model.plain.NamedBy Field.name
  ordinary : ∀ field ∈ draft.model.plain.values,
    field.identity = false ∧ field.name ≠ draft.model.identity.name
  relations : (draft.relations.map RelationDef.name).Nodup
  apart : ∀ relation ∈ draft.relations, relation.name ∉ draft.model.fields.keys
  typed : ∀ field ∈ draft.model.fields.values, field.Typed
  validFields : ∀ name ∈ draft.model.plain.keys, Naming.isValid name
  valid : ∀ relation ∈ draft.relations, Naming.isValid relation.name
  name : Naming.isValid draft.model.name
  identityName : Naming.isValid draft.model.identity.name
  templates : ∀ relation ∈ draft.relations, relation.Unreserved

theorem ofMembers_ok {definition : ModelDef} {members : Members}
    (hnames : Members.ValidNames definition) (hmembers : members.Sound)
    {draft : Draft} {issues : List Issue} (h : ofMembers definition members = .ok (draft, issues)) :
    draft.model.name = definition.name ∧ draft.Sound := by
  unfold ofMembers at h
  obtain ⟨⟨identity, plain⟩, hfields, h⟩ := except_bind_eq_ok.mp h
  dsimp only at h
  split at h
  · cases h
  · rename_i hfree
    obtain ⟨hidentity, htyped, hidentity_name, hordinary⟩ :=
      Field.ofDefs_ok hfields hmembers.fields.nodup_names
    obtain ⟨rfl, -⟩ := Prod.mk.inj (Except.ok.inj h)
    have hplain : (Keyed.ofList (plain.map fun field => (field.name, field))).NamedBy
        Field.name := .ofList plain
    have hmem : ∀ field ∈ (Keyed.ofList (plain.map fun field => (field.name, field))).values,
        field ∈ plain := fun _ => Keyed.mem_of_mem_ofList
    have hkeys : ∀ relation ∈ members.relations.values,
        relation.name ∈ members.relations.keys := fun relation hrelation =>
      hmembers.relations.mem_keys.mpr ⟨relation, hrelation, rfl⟩
    have hdefined : ∀ name ∈ (Keyed.ofList (plain.map fun field => (field.name, field))).keys,
        name ∈ members.fields.keys := by
      intro name hname
      obtain ⟨field, hfield, rfl⟩ := hplain.mem_keys.mp hname
      obtain ⟨definition, hdefinition, hsame⟩ :=
        List.mem_map.mp (hordinary field (hmem field hfield)).2.2.2
      exact hmembers.fields.mem_keys.mpr ⟨definition, hdefinition, hsame⟩
    refine ⟨rfl, hidentity, hplain, ?_, hmembers.relations.nodup_names, ?_, ?_,
      fun name hname => hmembers.valid name (.inl (hdefined name hname)),
      fun relation hrelation => hmembers.valid _ (.inr (hkeys relation hrelation)),
      hnames.name, ?_, hmembers.templates⟩
    · intro field hfield
      obtain ⟨hnot, hne, -⟩ := hordinary field (hmem field hfield)
      exact ⟨hnot, hne⟩
    · intro relation hrelation hname
      have hkey := hkeys relation hrelation
      rcases List.mem_cons.mp hname with heq | hother
      · have hsame : relation.name = identity.name := heq
        rw [hsame] at hkey
        exact hfree (Keyed.isSome_get?_iff.mpr hkey)
      · exact hmembers.apart _ hkey (hdefined _ hother)
    · intro field hfield
      rcases List.mem_cons.mp hfield with rfl | hother
      · exact htyped
      · exact (hordinary field (hmem field hother)).2.2.1
    · rcases hidentity_name with himplicit | hgiven
      · rw [show identity.name = Field.implicitName from himplicit]
        decide
      · obtain ⟨definition, hdefinition, hsame⟩ := List.mem_map.mp hgiven
        exact hmembers.valid _
          (.inl (hmembers.fields.mem_keys.mpr ⟨definition, hdefinition, hsame⟩))

theorem ofModels_sound {models : List (ModelDef × Except Issue Members)}
    (h : ∀ model members, (model, .ok members) ∈ models →
      Members.ValidNames model ∧ members.Sound) :
    (∀ draft ∈ (ofModels models).1, draft.Sound) ∧
      ((ofModels models).1.map (·.model.name)).Sublist (models.map (·.1.name)) := by
  induction models with
  | nil => exact ⟨fun _ hmem => absurd hmem List.not_mem_nil, .slnil⟩
  | cons first models ih =>
      obtain ⟨definition, members⟩ := first
      obtain ⟨hsound, hnames⟩ :=
        ih fun model found hmem => h model found (List.mem_cons_of_mem _ hmem)
      unfold ofModels
      dsimp only
      split
      · exact ⟨hsound, hnames.cons _⟩
      · rename_i found
        split
        · exact ⟨hsound, hnames.cons _⟩
        · rename_i draft issues hdraft
          obtain ⟨hvalid, hmembers⟩ := h definition found List.mem_cons_self
          obtain ⟨hname, hfirst⟩ := ofMembers_ok hvalid hmembers hdraft
          refine ⟨List.forall_mem_cons.mpr ⟨hfirst, hsound⟩, ?_⟩
          rw [List.map_cons, List.map_cons, hname]
          exact hnames.cons_cons _

/-! ### Settled models -/

theorem mem_relationships_settle {drafts : List Draft} {draft : Draft}
    {relationship : Relationship}
    (h : relationship ∈ (draft.settle drafts).relationships.values) :
    ∃ relation ∈ draft.knownRelations drafts, relationship = Relationship.own relation := by
  obtain ⟨entry, hentry, rfl⟩ := Keyed.mem_values_ofList h
  obtain ⟨relation, hrelation, rfl⟩ := List.mem_map.mp hentry
  exact ⟨relation, hrelation, rfl⟩

theorem named_settle (drafts : List Draft) (draft : Draft) :
    (draft.settle drafts).relationships.NamedBy Relationship.name := by
  have hnamed : (Keyed.ofList (((draft.knownRelations drafts).map Relationship.own).map
      fun relationship => (relationship.name, relationship))).NamedBy Relationship.name :=
    .ofList _
  rwa [List.map_map] at hnamed

theorem Sound.settle {draft : Draft} (h : draft.Sound) (drafts : List Draft) :
    (draft.settle drafts).Sound where
  identity := h.identity
  plain := h.plain
  ordinary := h.ordinary
  relationships := draft.named_settle drafts
  apart name hname := by
    obtain ⟨relationship, hmem, rfl⟩ := (draft.named_settle drafts).mem_keys.mp hname
    obtain ⟨relation, hrelation, rfl⟩ := mem_relationships_settle hmem
    exact h.apart relation (List.mem_filter.mp hrelation).1
  typed := h.typed
  valid := h.validFields
  identityName := Naming.unreserved_of_valid h.identityName
  unreserved name hname := by
    obtain ⟨relationship, hmem, rfl⟩ := (draft.named_settle drafts).mem_keys.mp hname
    obtain ⟨relation, hrelation, rfl⟩ := mem_relationships_settle hmem
    exact Naming.unreserved_of_valid (h.valid relation (List.mem_filter.mp hrelation).1)

theorem relationship?_settle {drafts : List Draft} {draft : Draft} (h : draft.Sound)
    {relation : RelationDef} (hrelation : relation ∈ draft.knownRelations drafts) :
    (draft.settle drafts).relationship? relation.name = some (Relationship.own relation) := by
  refine (draft.named_settle drafts).get?_eq_some.mpr ⟨?_, rfl⟩
  have hnames : (((draft.knownRelations drafts).map Relationship.own).map
      Relationship.name).Nodup := by
    rw [List.map_map]
    exact h.relations.sublist (List.filter_sublist.map _)
  have hvalues := Keyed.values_ofList hnames
  rw [List.map_map] at hvalues
  change Relationship.own relation ∈ (Keyed.ofList _).values
  rw [show (fun relation => (relation.name, Relationship.own relation)) =
      (fun relationship => (Relationship.name relationship, relationship)) ∘ Relationship.own
    from rfl, hvalues]
  exact List.mem_map.mpr ⟨relation, hrelation, rfl⟩

end Draft

end ModelSurface
