import ModelSurface.Proofs.Schema.Pairing
import ModelSurface.Proofs.Schema.ValidNames

/-!
# Well-formed models

What everything that is generated from a model may rely on. Some of it is checked where a member is
declared, but a model also has members that it inherits and sides of relations that others declare.
So names are followed back to the declaration they come from, and what a draft is like is carried
over to the model that its relationships are added to.
-/

namespace ModelSurface

/-- A field that can be the identity of records. -/
structure Field.Identifies (field : Field) : Prop where
  marked : field.identity = true
  kind : field.kind = .integer ∨ field.kind = .uuid
  required : field.nullable = false
  single : field.list = false
  default : field.default = none
  assigned : ∃ generator, field.computed = some ⟨.create, generator⟩ ∧
    generator.produces field.kind = true

/-- A method that can be an operation on records that are found by the given identity. Every
parameter has a kind. -/
structure Method.WellFormed (identity : String) (method : Method) : Prop where
  name : Naming.isValid method.name
  operation : Naming.isValid method.operation
  params : ∀ param ∈ method.params, Naming.isValid param.name ∧ param.name ≠ identity
  distinct : (method.params.map Param.name).Nodup

/-- A model among others. -/
structure Model.WellFormed (models : Keyed Model) (model : Model) : Prop where
  fields : model.fields.NamedBy Field.name
  relationships : model.relationships.NamedBy Relationship.name
  methods : model.methods.NamedBy Method.name
  apart : ∀ name ∈ model.relationships.keys, name ∉ model.fields.keys
  first : model.fields.values.head? = some model.identity
  only : model.fields.values.filter Field.identity = [model.identity]
  identity : model.identity.Identifies
  /-- Generators and defaults give what may stand in the field. -/
  typed : ∀ field ∈ model.fields.values, field.Typed
  targets : ∀ relationship ∈ model.relationships.values,
    Introspection.Concrete models relationship.target
  signatures : ∀ method ∈ model.methods.values, method.WellFormed model.identity.name
  names : ∀ name, name ∈ model.fields.keys ∨ name ∈ model.relationships.keys ∨
    name ∈ model.methods.keys → Naming.isValid name

/-! ### Where members come from -/

namespace Members

/-- Every member of a model has been declared by a proper one. -/
theorem Reached.declared {known : List ModelDef} {settled : Settled} (h : Reached known settled)
    {model : String} {members : Members} (hfound : settled.get? model = some (.ok members))
    {name : String} {member : MemberDef} (hmember : members.member? name = some member) :
    ∃ declaring ∈ known, declaring.Proper ∧ declaring.member? name = some member := by
  induction h generalizing model members with
  | empty => cases hfound
  | @put settled declaring _ _ hdeclaring hsettled ih =>
      rw [Keyed.get?_put] at hfound
      split at hfound
      · rw [Option.some.inj hfound] at hsettled
        obtain ⟨hproper, bases, hbases, rfl⟩ := ofModel_ok_iff.mp hsettled
        rw [member?_declare hproper, member?_foldl_inherit] at hmember
        rcases Option.or_eq_some_iff.mp hmember with hown | ⟨-, hinherited⟩
        · exact ⟨declaring, hdeclaring, hproper, hown⟩
        · rw [show member? {} name = none from rfl, Option.none_or] at hinherited
          obtain ⟨base, hbase, hthere⟩ := List.exists_of_findSome?_eq_some hinherited
          obtain ⟨_, -, hget⟩ := exists_of_forall₂ hbases.flip hbase
          exact ih hget hthere
      · exact ih hfound hmember

/-- The other side of a relation has a valid name in every model that inherits the relation. -/
theorem expands_of_ofModels {known : List ModelDef} (hnames : (known.map (·.name)).Nodup)
    {model : ModelDef} {members : Members} (h : (model, .ok members) ∈ ofModels known) :
    ∀ relation ∈ members.relations.values, relation.Expands := by
  intro relation hrelation
  have hfound := (get?_full_eq_ok hnames (mem_ofModels.mp h).1).mpr h
  have hsound := (sound_of_ofModels h).2
  have hget := hsound.relations.get?_eq_some.mpr ⟨hrelation, rfl⟩
  have hfield : members.fields.get? relation.name = none :=
    Option.not_isSome_iff_eq_none.mp fun hsome => hsound.apart _
      (Keyed.isSome_get?_iff.mp (Option.isSome_of_eq_some hget)) (Keyed.isSome_get?_iff.mp hsome)
  have hmember : members.member? relation.name = some (.relation relation) := by
    simp [member?, hget, hfield]
  obtain ⟨declaring, -, hproper, hdeclared⟩ := (reached_full hnames).declared hfound hmember
  have hmem : relation ∈ declaring.relations := by
    rw [member?_of_proper hproper] at hdeclared
    cases hfind : declaring.relations.find? (·.name == relation.name) with
    | some other =>
        rw [hfind] at hdeclared
        injection hdeclared with hdeclared
        injection hdeclared with hsame
        rw [← hsame]
        exact List.mem_of_find?_eq_some hfind
    | none =>
        rw [hfind, Option.map_none, Option.none_or] at hdeclared
        obtain ⟨_, -, hkind⟩ := Option.map_eq_some_iff.mp hdeclared
        cases hkind
  refine RelationDef.expands declaring.name fun template htemplate => hproper.valid _ ?_
  unfold ModelDef.givenNames
  refine List.mem_append_right _ (List.mem_filterMap.mpr ⟨relation, hmem, ?_⟩)
  rw [htemplate]
  rfl

end Members

/-! ### Fields -/

namespace Field

theorem default_ofIdentity {model : String} {definition : FieldDef} {field : Field}
    (h : ofIdentity model definition = .ok field) : field.default = none := by
  unfold ofIdentity at h
  dsimp only at h
  split at h
  · cases h
  · split at h
    · cases h
    · split at h
      · cases h
      · cases h
        rfl

theorem default_ofDefs {model : String} {definitions : List FieldDef} {identity : Field}
    {plain : List Field} (h : ofDefs model definitions = .ok (identity, plain)) :
    identity.default = none := by
  rcases ofDefs_eq_ok h with ⟨rfl, -⟩ | ⟨_, _, _, _, _, -, -, hidentity, -⟩
  · rfl
  · exact default_ofIdentity hidentity

theorem identifies {field : Field} (h : field.IsIdentity) (htyped : field.Typed)
    (hdefault : field.default = none) : field.Identifies := by
  obtain ⟨generator, hgenerator⟩ := h.computed
  obtain ⟨hsingle, hproduces⟩ := htyped.computed _ hgenerator
  refine ⟨h.identity, ?_, h.required, hsingle, hdefault, generator, hgenerator, hproduces⟩
  have hkind := h.kind
  cases hcase : field.kind <;> simp [hcase, Kind.isIdentity] at hkind ⊢

end Field

/-! ### Methods -/

theorem Param.ofDefs_ok {identity : String} {before : List String} {definitions : List ParamDef}
    {params : List Param} (h : Param.ofDefs identity before definitions = .ok params) :
    (params.map Param.name).Nodup ∧ ∀ param ∈ params,
      Naming.isValid param.name ∧ param.name ≠ identity ∧ param.name ∉ before := by
  induction definitions generalizing before params with
  | nil =>
      obtain rfl : [] = params := Except.ok.inj h
      exact ⟨.nil, fun _ hmem => absurd hmem List.not_mem_nil⟩
  | cons definition definitions ih =>
      unfold Param.ofDefs at h
      split at h
      · cases h
      · rename_i hvalid
        split at h
        · cases h
        · split at h
          · cases h
          · split at h
            · cases h
            · rename_i hidentity
              split at h
              · cases h
              · rename_i hnew
                obtain ⟨rest, hrest, h⟩ := except_bind_eq_ok.mp h
                cases h
                obtain ⟨hdistinct, hall⟩ := ih hrest
                refine ⟨List.nodup_cons.mpr ⟨fun hmem => ?_, hdistinct⟩,
                  List.forall_mem_cons.mpr ⟨⟨by simpa using hvalid, hidentity, ?_⟩,
                    fun param hparam => ?_⟩⟩
                · obtain ⟨param, hparam, hsame⟩ := List.mem_map.mp hmem
                  exact (hall param hparam).2.2 (hsame ▸ List.mem_cons_self)
                · simpa using hnew
                · obtain ⟨hparam_valid, hother, hbefore⟩ := hall param hparam
                  exact ⟨hparam_valid, hother, fun hmem => hbefore (List.mem_cons_of_mem _ hmem)⟩

namespace Method

theorem wellFormed_ofDef {identity : String} {definition : MethodDef} {method : Method}
    (h : ofDef identity definition = .ok method) : method.WellFormed identity := by
  unfold ofDef at h
  dsimp only at h
  split at h
  · cases h
  · rename_i hname
    split at h
    · cases h
    · rename_i hoperation
      obtain ⟨params, hparams, h⟩ := except_bind_eq_ok.mp h
      cases h
      obtain ⟨hdistinct, hall⟩ := Param.ofDefs_ok hparams
      exact ⟨by simpa using hname, by simpa using hoperation,
        fun param hparam => ⟨(hall param hparam).1, (hall param hparam).2.1⟩, hdistinct⟩

theorem wellFormed_ofDefs {model identity : String} {definitions : List MethodDef} {method : Method}
    (h : method ∈ (ofDefs model identity definitions).1) : method.WellFormed identity := by
  induction definitions with
  | nil => cases h
  | cons definition definitions ih =>
      unfold ofDefs at h
      dsimp only at h
      split at h
      · exact ih h
      · split at h
        · rename_i hdef
          rcases List.mem_cons.mp h with rfl | hrest
          · exact wellFormed_ofDef hdef
          · exact ih hrest
        · exact ih h

end Method

/-! ### Drafts -/

/-- What drafts have besides, as long as no relationships are added to them. -/
structure Draft.Clean (draft : Draft) : Prop where
  default : draft.model.identity.default = none
  methods : draft.model.methods.NamedBy Method.name
  signatures : ∀ method ∈ draft.model.methods.values,
    method.WellFormed draft.model.identity.name
  expands : ∀ relation ∈ draft.relations, relation.Expands

theorem Draft.clean_ofMembers {model : ModelDef} {members : Members} {draft : Draft}
    {issues : List Issue} (h : ofMembers model members = .ok (draft, issues))
    (hexpands : ∀ relation ∈ members.relations.values, relation.Expands) : draft.Clean := by
  unfold ofMembers at h
  obtain ⟨⟨identity, plain⟩, hfields, h⟩ := except_bind_eq_ok.mp h
  dsimp only at h
  split at h
  · cases h
  · cases h
    exact ⟨Field.default_ofDefs hfields, .ofList _,
      fun method hmethod => Method.wellFormed_ofDefs (Keyed.mem_of_mem_ofList hmethod), hexpands⟩

theorem Registry.clean_drafts {registry : Registry}
    (hnames : (registry.models.map (·.name)).Nodup) : ∀ draft ∈ registry.drafts, draft.Clean := by
  intro draft hdraft
  obtain ⟨model, hmodel, hbuilt⟩ := List.mem_filterMap.mp hdraft
  unfold ModelDef.draft? Draft.built? at hbuilt
  cases hmembers : Members.ofSettled registry.models
      (Members.settle registry.models .empty registry.models) model with
  | error issue =>
      rw [hmembers] at hbuilt
      cases hbuilt
  | ok members =>
      have hmem := Members.mem_ofModels.mpr ⟨hmodel, hmembers⟩
      rw [hmembers] at hbuilt
      rcases Draft.ofMembers_cases model members with ⟨found, issues, hfound, -⟩ | ⟨_, herror, -⟩
      · simp only [Except.bind, hfound, Except.toOption, Option.map_some] at hbuilt
        rw [← Option.some.inj hbuilt]
        exact Draft.clean_ofMembers hfound (Members.expands_of_ofModels hnames hmem)
      · simp [Except.bind, herror, Except.toOption] at hbuilt

/-! ### Adding relationships -/

/-- A model up to its relationships. -/
def Model.bare (model : Model) : Model := { model with relationships := .empty }

theorem Model.eq_of_bare {model other : Model} (h : model.bare = other.bare) :
    model.identity = other.identity ∧ model.methods = other.methods := by
  unfold bare at h
  injection h with _ _ _ hidentity _ _ hmethods
  exact ⟨hidentity, hmethods⟩

namespace Introspection

theorem bare_addRelationship (model : Model) (relationship : Relationship) :
    (addRelationship model relationship).bare = model.bare := rfl

theorem bare_setInverse (model : Model) (name inverse : String) :
    (setInverse model name inverse).bare = model.bare := by
  unfold setInverse
  split <;> rfl

theorem bare_update {models : Keyed Model} {change : Model → Model}
    (hchange : ∀ model, (change model).bare = model.bare) (name other : String) :
    ((update models name change).get? other).map Model.bare =
      (models.get? other).map Model.bare := by
  rw [get?_update]
  split
  · rename_i heq
    subst heq
    cases models.get? other with
    | none => rfl
    | some model => exact congrArg some (hchange model)
  · rfl

theorem bare_addReverse (state : Introspection) (declared : String × RelationDef)
    (name : String) : ((addReverse state declared).models.get? name).map Model.bare =
      (state.models.get? name).map Model.bare := by
  obtain ⟨model, relation⟩ := declared
  rcases addReverse_cases state model relation with
    ⟨-, heq⟩ | ⟨_, _, -, -, heq⟩ | ⟨target, -, -, heq⟩
  · rw [heq]
  · rw [heq]
  · rw [heq, withReverse]
    dsimp only
    rw [bare_update fun found => bare_setInverse found _ _,
      bare_update fun found => bare_addRelationship found _]

/-- Sides that are not held are named as the relations that they are the other sides of say. -/
def NamedFor (models : Keyed Model) (declared : List (String × RelationDef)) : Prop :=
  ∀ name field side, side? models name field = some side → side.isOwn = false →
    ∃ each ∈ declared, field = each.2.reverseName each.1

theorem NamedFor.addReverse {state : Introspection} {all : List (String × RelationDef)}
    (hnamed : NamedFor state.models all) (h : Sound state.models) {declared : String × RelationDef}
    (hdeclared : Declared state.models declared) (hmem : declared ∈ all) :
    NamedFor (Introspection.addReverse state declared).models all := by
  obtain ⟨model, relation⟩ := declared
  rcases addReverse_cases state model relation with
    ⟨-, heq⟩ | ⟨_, _, -, -, heq⟩ | ⟨target, htarget, hfree, heq⟩
  · rw [heq]
    exact hnamed
  · rw [heq]
    exact hnamed
  · rw [heq]
    intro name field side hside hremote
    rcases side?_withReverse_cases h hdeclared htarget hfree hside with
      ⟨-, hown, -⟩ | ⟨hkey, -⟩ | ⟨-, hold⟩
    · rw [hown] at hremote
      cases hremote
    · exact ⟨_, hmem, (Prod.mk.inj hkey).2⟩
    · exact hnamed name field side hold hremote

/-- What a model keeps of its draft, and how the other sides at it are named. -/
theorem foldl_addReverse_names {all declared : List (String × RelationDef)} {state : Introspection}
    (h : Sound state.models) (hdeclared : ∀ each ∈ declared, Declared state.models each)
    (hnamed : NamedFor state.models all) (hall : ∀ each ∈ declared, each ∈ all) :
    NamedFor (declared.foldl addReverse state).models all ∧
      ∀ name, ((declared.foldl addReverse state).models.get? name).map Model.bare =
        (state.models.get? name).map Model.bare := by
  induction declared generalizing state with
  | nil => exact ⟨hnamed, fun _ => rfl⟩
  | cons first rest ih =>
      obtain ⟨hfirst, hrest⟩ := List.forall_mem_cons.mp hdeclared
      obtain ⟨hfirst_mem, hrest_mem⟩ := List.forall_mem_cons.mp hall
      obtain ⟨hsound, hkeeps⟩ := addReverse_keeps h hfirst
      obtain ⟨hlast, hbare⟩ := ih hsound (fun each heach => (hrest each heach).keeps hkeeps)
        (hnamed.addReverse h hfirst hfirst_mem) hrest_mem
      exact ⟨hlast, fun name => (hbare name).trans (bare_addReverse state first name)⟩

section Drafts

variable {drafts : List Draft} (hsound : ∀ draft ∈ drafts, draft.Sound)
  (hnames : (drafts.map (·.model.name)).Nodup) (issues : List Issue)

include hsound hnames

theorem ofDrafts_names :
    NamedFor (ofDrafts drafts issues).models (drafts.flatMap (Draft.reversible drafts)) ∧
      ∀ name model, (ofDrafts drafts issues).models.get? name = some model →
        ∃ draft ∈ drafts, model.bare = draft.model.bare := by
  have hnone : NamedFor (settled drafts) (drafts.flatMap (Draft.reversible drafts)) := by
    intro name field side hside hremote
    obtain ⟨_, -, -, -, relation, -, -, rfl⟩ := side?_settled hside
    cases hremote
  have hstart : Sound (outset drafts issues).models := sound_settled hsound hnames
  obtain ⟨hnamed, hbare⟩ := foldl_addReverse_names hstart
    (fun _ => declared_of_reversible hsound hnames) hnone fun _ hmem => hmem
  refine ⟨hnamed, fun name model hfound => ?_⟩
  have hsame : ((ofDrafts drafts issues).models.get? name).map Model.bare =
    ((settled drafts).get? name).map Model.bare := hbare name
  rw [hfound, Option.map_some] at hsame
  obtain ⟨old, hold, heq⟩ := Option.map_eq_some_iff.mp hsame.symm
  obtain ⟨draft, hdraft, rfl⟩ := exists_draft_of_get?_settled hold
  exact ⟨draft, hdraft, heq.symm⟩

/-- Also the sides that others add to a model have valid names. -/
theorem isValid_side (hexpands : ∀ draft ∈ drafts, draft.Clean) {name field : String}
    {side : Relationship} (hside : side? (ofDrafts drafts issues).models name field = some side) :
    Naming.isValid field := by
  cases hown : side.isOwn with
  | true => exact ((sound_ofDrafts hsound hnames issues).own name field side hside hown).1
  | false =>
      obtain ⟨each, heach, rfl⟩ :=
        (ofDrafts_names hsound hnames issues).1 name field side hside hown
      obtain ⟨draft, hdraft, hmem⟩ := List.mem_flatMap.mp heach
      unfold Draft.reversible at hmem
      split at hmem
      · cases hmem
      · obtain ⟨relation, hrelation, rfl⟩ := List.mem_map.mp hmem
        exact (hexpands draft hdraft).expands relation (List.mem_filter.mp hrelation).1 _
          (hsound draft hdraft).name

end Drafts

/-- Each relationship leads to a model with records, be it held or seen from its target. -/
theorem Sound.concrete {models : Keyed Model} (h : Sound models) {name field : String}
    {side : Relationship} (hside : side? models name field = some side) :
    Concrete models side.target := by
  cases hown : side.isOwn with
  | true => exact (h.own name field side hside hown).2.2
  | false =>
      obtain ⟨other, hremote⟩ := isOwn_eq_false_iff.mp hown
      exact (h.remote name field side other hside hremote).1

end Introspection

/-! ### All models -/

/-- The identity is the only field that is marked as one. -/
theorem Model.Sound.filter_identity {model : Model} (h : model.Sound) :
    model.fields.values.filter Field.identity = [model.identity] := by
  have hplain : model.plain.values.filter Field.identity = [] :=
    List.filter_eq_nil_iff.mpr fun field hfield => by simp [(h.ordinary field hfield).1]
  change (model.identity :: model.plain.values).filter Field.identity = _
  rw [List.filter_cons_of_pos h.identity.identity, hplain]

/-- The members of a model have valid names, whichever model they come from. -/
theorem Registry.isValid_member {registry : Registry} {found : Introspection}
    (h : registry.introspect = .ok found) {model : Model} (hmodel : model ∈ found.models.values)
    {name : String} (hname : name ∈ model.fields.keys ∨ name ∈ model.relationships.keys) :
    Naming.isValid name := by
  have hsound := sound_introspect h
  have hget : found.models.get? model.name = some model :=
    hsound.named.get?_eq_some.mpr ⟨hmodel, rfl⟩
  have hmodel_sound := hsound.model _ _ hget
  obtain ⟨hnames, issues, rfl, -⟩ := introspect_eq_ok h
  have hdrafts := nodup_drafts hnames
  rcases hname with hfield | hrelationship
  · rcases List.mem_cons.mp hfield with rfl | hplain
    · obtain ⟨draft, hdraft, hbare⟩ :=
        (Introspection.ofDrafts_names registry.sound_drafts hdrafts issues).2 _ _ hget
      change Naming.isValid model.identity.name
      rw [(Model.eq_of_bare hbare).1]
      exact (registry.sound_drafts draft hdraft).identityName
    · exact hmodel_sound.valid name hplain
  · obtain ⟨relationship, hmem, rfl⟩ := hmodel_sound.relationships.mem_keys.mp hrelationship
    have hside : Introspection.side? (Introspection.ofDrafts registry.drafts issues).models
        model.name relationship.name = some relationship := by
      unfold Introspection.side?
      rw [hget, Option.bind_some]
      exact hmodel_sound.relationships.get?_eq_some.mpr ⟨hmem, rfl⟩
    exact Introspection.isValid_side registry.sound_drafts hdrafts issues (clean_drafts hnames)
      hside

/-- Every model of every registry that has models at all is well formed, and is found under its own
name. -/
theorem Registry.introspect_wellFormed {registry : Registry} {found : Introspection}
    (h : registry.introspect = .ok found) :
    found.models.NamedBy Model.name ∧
      ∀ model ∈ found.models.values, model.WellFormed found.models := by
  have hsound := sound_introspect h
  refine ⟨hsound.named, fun model hmodel => ?_⟩
  have hget : found.models.get? model.name = some model :=
    hsound.named.get?_eq_some.mpr ⟨hmodel, rfl⟩
  have hmodel_sound := hsound.model _ _ hget
  have hside : ∀ relationship ∈ model.relationships.values,
      Introspection.side? found.models model.name relationship.name = some relationship := by
    intro relationship hmem
    unfold Introspection.side?
    rw [hget, Option.bind_some]
    exact hmodel_sound.relationships.get?_eq_some.mpr ⟨hmem, rfl⟩
  obtain ⟨hnames, issues, rfl, -⟩ := introspect_eq_ok h
  have hclean := clean_drafts hnames
  have hvalid := fun name field side => @Introspection.isValid_side _ registry.sound_drafts
    (nodup_drafts hnames) issues hclean name field side
  obtain ⟨draft, hdraft, hbare⟩ := (Introspection.ofDrafts_names registry.sound_drafts
    (nodup_drafts hnames) issues).2 _ _ hget
  obtain ⟨hidentity, hmethods⟩ := Model.eq_of_bare hbare
  have hdraft_clean := hclean draft hdraft
  have hsignatures : ∀ method ∈ model.methods.values,
      method.WellFormed model.identity.name := by
    rw [hidentity, hmethods]
    exact hdraft_clean.signatures
  have hnamed_methods : model.methods.NamedBy Method.name := hmethods ▸ hdraft_clean.methods
  refine ⟨hmodel_sound.fields_named, hmodel_sound.relationships, hnamed_methods,
    hmodel_sound.apart, rfl, hmodel_sound.filter_identity, ?_, hmodel_sound.typed,
    fun relationship hmem => hsound.concrete (hside relationship hmem), hsignatures, ?_⟩
  · refine Field.identifies hmodel_sound.identity
      (hmodel_sound.typed _ List.mem_cons_self) ?_
    rw [hidentity]
    exact hdraft_clean.default
  · rintro name (hfield | hrelationship | hmethod)
    · rcases List.mem_cons.mp hfield with rfl | hplain
      · change Naming.isValid model.identity.name
        rw [hidentity]
        exact (registry.sound_drafts draft hdraft).identityName
      · exact hmodel_sound.valid name hplain
    · obtain ⟨relationship, hmem, rfl⟩ := hmodel_sound.relationships.mem_keys.mp hrelationship
      exact hvalid _ _ _ (hside relationship hmem)
    · obtain ⟨method, hmem, rfl⟩ := hnamed_methods.mem_keys.mp hmethod
      exact (hsignatures method hmem).name

/-- A person is seen from two models that inherit one relation, under the name of each of them. -/
def libraryModels : List ModelDef :=
  [{ name := "Owned", isAbstract := true
     fields := [{ name := "shelf", kind := .string, default := some (.str "A") }]
     relations := [{ name := "owner", target := "Person", kind := .foreignKey,
                     relatedName := some "\x7bmodel\x7d_things" }] },
   { name := "Person"
     fields := [{ name := "key", kind := .uuid, identity := true }]
     methods := [{ name := "greet", exposed := true,
                   params := [{ name := "loudly", kind := some .boolean }] }] },
   { name := "PictureBook", bases := ["Owned"] },
   { name := "Film", bases := ["Owned"] }]

theorem Registry.introspect_wellFormed_library : ∃ found model,
    Registry.introspect { models := libraryModels } = .ok found ∧
    found.models.get? "Person" = some model ∧
    model.relationships.keys = ["picture_book_things", "film_things"] ∧
    model.methods.keys = ["greet"] ∧ model.WellFormed found.models := by
  obtain ⟨found, h⟩ : ∃ found, Registry.introspect { models := libraryModels } = .ok found :=
    introspect_of_nodup (by decide)
  have hkeys : (Registry.introspect { models := libraryModels }).toOption.bind (fun found =>
      (found.models.get? "Person").map fun model =>
        (model.relationships.keys, model.methods.keys)) =
      some (["picture_book_things", "film_things"], ["greet"]) := by
    decide +kernel
  rw [h] at hkeys
  obtain ⟨model, hmodel, hboth⟩ := Option.map_eq_some_iff.mp hkeys
  obtain ⟨hrelationships, hmethods⟩ := Prod.mk.inj hboth
  obtain ⟨-, hall⟩ := Registry.introspect_wellFormed h
  exact ⟨found, model, h, hmodel, hrelationships, hmethods,
    hall model (Keyed.mem_values_of_get? hmodel)⟩

end ModelSurface
