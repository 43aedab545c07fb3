import ModelSurface.Proofs.Filter.Listed

/-!
# How far filters lead

The models of a registry may refer to themselves and to each other in circles; filters on them do
not go round for ever. Each relationship leads to a filter type from which one relationship less may
be followed, while combinators stay within theirs. So a filter that is read passes at most as many
relationships on its way down as the options allow, and that many it may pass in any order in which
the models have them.
-/

namespace ModelSurface

/-! ### Ways through the models -/

/-- The relationships that lead from one model to another, each held by the target of the one
before. -/
inductive Schema.Leads (schema : Schema) : Model → List Relationship → Model → Prop
  | stay (model : Model) : Leads schema model [] model
  | follow {model target last : Model} {relationship : Relationship} {rest : List Relationship}
      (hmem : relationship ∈ model.relationships.values)
      (htarget : schema.model? relationship.target = some target)
      (h : Leads schema target rest last) : Leads schema model (relationship :: rest) last

namespace Filter

/-! ### Ways down filters -/

/-- The ways from a filter down to its parts, with the relations of related records that they pass
and the targets of these. What is combined may be passed without limit. -/
inductive Descends : Filter → List (String × String) → Filter → Prop
  | stay (filter : Filter) : Descends filter [] filter
  | related {relation target : String} {filter part : Filter} {passed : List (String × String)}
      (h : Descends filter passed part) :
      Descends (.related relation target filter) ((relation, target) :: passed) part
  | all {filters : List Filter} {filter part : Filter} {passed : List (String × String)}
      (hmem : filter ∈ filters) (h : Descends filter passed part) :
      Descends (.all filters) passed part
  | any {filters : List Filter} {filter part : Filter} {passed : List (String × String)}
      (hmem : filter ∈ filters) (h : Descends filter passed part) :
      Descends (.any filters) passed part
  | not {filter part : Filter} {passed : List (String × String)} (h : Descends filter passed part) :
      Descends (.not filter) passed part

/-- A part that is a filter of related records is one more relation on the way to what is below. -/
theorem Descends.into {filter inner : Filter} {passed : List (String × String)}
    {relation target : String} (h : Descends filter passed (.related relation target inner)) :
    Descends filter (passed ++ [(relation, target)]) inner := by
  generalize hpart : Filter.related relation target inner = part at h
  induction h with
  | stay => exact hpart ▸ .related (.stay inner)
  | related _ ih => exact .related (ih hpart)
  | all hmem _ ih => exact .all hmem (ih hpart)
  | any hmem _ ih => exact .any hmem (ih hpart)
  | not _ ih => exact .not (ih hpart)

end Filter

/-! ### The relations of filter types -/

namespace FilterType

variable {schema : Schema} {type inner : FilterType}

/-- A relation that is found in a filter type is one that it leads to. -/
theorem mem_relations_of_field? {name relation target : String} {many : Bool}
    (h : type.field? name = some (.relation relation target many inner)) :
    ∃ relationship, (relationship, inner) ∈ type.relations ∧
      relationship.name = name ∧ relationship.target = target := by
  have hname : relation = name := by simpa [FilterField.name] using List.find?_some h
  rcases List.mem_append.mp (List.mem_of_find?_eq_some h) with hscalar | hrelation
  · obtain ⟨field, -, heq⟩ := List.mem_map.mp hscalar
    cases heq
  · obtain ⟨⟨relationship, filter⟩, hmem, heq⟩ := List.mem_map.mp hrelation
    injection heq with hrelation_name htarget _ hinner
    subst hinner
    exact ⟨relationship, hmem, hrelation_name.trans hname, htarget⟩

/-- As long as relationships may be followed, each relationship of the model is found. -/
theorem field?_of_relationship (hsound : schema.Sound) (h : type.Within schema)
    {relationship : Relationship} {target : Model} {remaining : ℕ}
    (hmem : relationship ∈ type.model.relationships.values)
    (htarget : schema.model? relationship.target = some target)
    (hremaining : type.remaining = remaining + 1) :
    type.field? relationship.name = some (.relation relationship.name relationship.target
      relationship.isMany { type with model := target, remaining := remaining }) := by
  have hrelation : (relationship, { type with model := target, remaining := remaining }) ∈
      type.relations :=
    mem_relations.mpr ⟨hmem, remaining, target, hremaining, h.target?.symm ▸ htarget, rfl⟩
  exact field?_of_mem (hsound.model _ h.model)
    (List.mem_append_right _ (List.mem_map.mpr ⟨_, hrelation, rfl⟩))

end FilterType

namespace Filter

variable {schema : Schema} {type : FilterType}

/-! ### Filters that are read -/

/-- What a filter passes is a way through the models, and no longer than its type allows. -/
theorem Descends.leads {filter part : Filter} {passed : List (String × String)}
    (h : Descends filter passed part) (hsound : schema.Sound) (hwithin : type.Within schema)
    (hfits : Fits type filter) :
    ∃ chain last, schema.Leads type.model chain last ∧
      chain.map (fun relationship => (relationship.name, relationship.target)) = passed ∧
        chain.length ≤ type.remaining := by
  induction h generalizing type with
  | stay => exact ⟨[], type.model, .stay _, rfl, Nat.zero_le _⟩
  | related _ ih =>
      cases hfits with
      | related _ hfield hinner =>
          obtain ⟨relationship, hrelation, rfl, rfl⟩ := FilterType.mem_relations_of_field? hfield
          obtain ⟨chain, last, hleads, rfl, hlength⟩ :=
            ih (hwithin.relation hsound hrelation) hinner
          obtain ⟨hmem, remaining, next, hremaining, hnext, rfl⟩ :=
            FilterType.mem_relations.mp hrelation
          rw [hwithin.target?] at hnext
          refine ⟨relationship :: chain, last, .follow hmem hnext hleads, rfl, ?_⟩
          rw [List.length_cons, hremaining]
          exact Nat.succ_le_succ hlength
  | all hmem _ ih =>
      cases hfits with
      | all hfilters => exact ih hwithin (hfilters _ hmem)
  | any hmem _ ih =>
      cases hfits with
      | any hfilters => exact ih hwithin (hfilters _ hmem)
  | not _ ih =>
      cases hfits with
      | not hfilter => exact ih hwithin hfilter

theorem Descends.leads_of_read {json : Json} {filter part : Filter}
    {passed : List (String × String)} (h : Descends filter passed part) (hsound : schema.Sound)
    {model : Model} (hmodel : model ∈ schema.models)
    (hread : ofJson (schema.filter model) json = .ok filter) :
    passed.length ≤ schema.options.relationFilterDepth ∧
      ∃ chain last, schema.Leads model chain last ∧
        chain.map (fun relationship => (relationship.name, relationship.target)) = passed := by
  obtain ⟨chain, last, hleads, rfl, hlength⟩ :=
    h.leads hsound ⟨hmodel, rfl⟩ (fits_of_read hread)
  rw [List.length_map]
  exact ⟨hlength, chain, last, hleads, rfl⟩

/-! ### Filters along relationships -/

/-- The expression that follows relationships, one within the other, and says something of the
records at their end. -/
def expressionAlong (chain : List Relationship) (json : Json) : Json :=
  chain.foldr (fun relationship inner => Json.object [(relationship.name, inner)]) json

/-- The filter that holds of records from which relationships lead to some of which another filter
holds. -/
def along (chain : List Relationship) (filter : Filter) : Filter :=
  chain.foldr (fun relationship inner => .related relationship.name relationship.target inner)
    filter

/-- What is read in every filter type of a model is read behind relationships that lead there. -/
theorem read_along (hsound : schema.Sound) {model last : Model} {chain : List Relationship}
    (hleads : schema.Leads model chain last)
    (hnames : ∀ relationship ∈ chain, relationship.name ∉ combinators) {json : Json}
    {filter : Filter}
    (hread : ∀ inner : FilterType, inner.Within schema → inner.model = last → ∀ path,
      read inner path json = .ok filter)
    (hwithin : type.Within schema) (hmodel : type.model = model)
    (hlength : chain.length ≤ type.remaining) (path : String) :
    read type path (expressionAlong chain json) = .ok (along chain filter) := by
  induction hleads generalizing type path with
  | stay model => exact hread type hwithin hmodel path
  | @follow model target last relationship rest hmem htarget _ ih =>
      subst hmodel
      obtain ⟨hname, hrest⟩ := List.forall_mem_cons.mp hnames
      obtain ⟨remaining, hremaining⟩ : ∃ remaining, type.remaining = remaining + 1 :=
        Nat.exists_eq_add_one.mpr (Nat.lt_of_lt_of_le (Nat.succ_pos _) hlength)
      have hfield := FilterType.field?_of_relationship hsound hwithin hmem htarget hremaining
      refine read_related hname hfield path (ih hrest hread ?_ rfl ?_ _)
      · exact ⟨(hsound.model?_eq_some.mp htarget).1, hwithin.target?⟩
      · rw [List.length_cons, hremaining] at hlength
        exact Nat.le_of_succ_le_succ hlength

/-- **How far filters lead.** Whatever the models of a registry refer to, a filter that is read
passes relationships of the models one after the other, and on no way down to one of its parts more
of them than the options allow; if they allow none, no part of it is a filter of related records.
And along every chain of that many relationships, none with the name of a combinator, each predicate
on a field of the model at their end is read as what it says. -/
theorem hops_bounded {registry : Registry} {schema : Schema}
    (hschema : registry.schema = .ok schema) {model : Model} (hmodel : model ∈ schema.models) :
    (∀ json filter, ofJson (schema.filter model) json = .ok filter →
      ∀ passed part, Descends filter passed part →
        passed.length ≤ registry.options.relationFilterDepth ∧
          ∃ chain last, schema.Leads model chain last ∧
            chain.map (fun relationship => (relationship.name, relationship.target)) = passed) ∧
      (registry.options.relationFilterDepth = 0 →
        ∀ json filter, ofJson (schema.filter model) json = .ok filter →
          ∀ passed relation target inner,
            ¬ Descends filter passed (.related relation target inner)) ∧
      ∀ chain last, schema.Leads model chain last →
        chain.length ≤ registry.options.relationFilterDepth →
        (∀ relationship ∈ chain, relationship.name ∉ combinators) →
        ∀ field ∈ last.fields.values, field.name ∉ combinators →
          ∀ op ∈ FilterOp.forField field.kind field.list field.nullable, ∀ json operand,
            Operand.read op field.kind field.list json = .ok operand →
              ofJson (schema.filter model)
                  (expressionAlong chain
                    (Json.object [(field.name, Json.object [(op.name, json)])])) =
                .ok (along chain (.leaf field.name op operand)) := by
  have hsound := Registry.sound_schema hschema
  have hoptions : schema.options = registry.options := by
    obtain ⟨found, -, rfl⟩ := Registry.exists_introspection hschema
    rfl
  rw [← hoptions]
  refine ⟨fun json filter hread passed part h => h.leads_of_read hsound hmodel hread,
    fun hnone json filter hread passed relation target inner h => ?_,
    fun chain last hleads hlength hnames field hfield hname op hop json operand hread => ?_⟩
  · have hlength := (h.into.leads_of_read hsound hmodel hread).1
    rw [hnone, List.length_append, List.length_singleton] at hlength
    omega
  · refine read_along hsound hleads hnames (fun inner hinner hlast path => ?_) ⟨hmodel, rfl⟩ rfl
      hlength "filter"
    subst hlast
    have hfound := FilterType.field?_of_mem (hsound.model _ hinner.model)
      (FilterType.scalar_mem_fields hfield)
    exact read_leaf hname hfound hop hread path

/-- Nodes in chains, with filters that follow two relationships. -/
def twoHopRegistry : Registry := { chainRegistry with options := { relationFilterDepth := 2 } }

def twoHopSchema : Schema := twoHopRegistry.schema.toOption.getD {}

theorem schema_twoHopRegistry : twoHopRegistry.schema = .ok twoHopSchema :=
  Registry.schema_eq_ok {} (by decide +kernel)

/-- Nodes from which the next one leads back to the first node, however this is said. -/
def roundTrip : Json := .obj [
  ("next", .obj [("not", .obj [("or", .arr [.obj [], .obj [
    ("nodes", .obj [("id", .obj [("eq", .num (.int 1))])])]])])])]

theorem hops_bounded_round : ∃ model ∈ twoHopSchema.models,
    (∃ filter, ofJson (twoHopSchema.filter model) roundTrip = .ok filter ∧
      ∀ passed part, Descends filter passed part → passed.length ≤ 2) ∧
    ∃ next ∈ model.relationships.values, ∃ nodes ∈ model.relationships.values,
      twoHopSchema.Leads model [next, nodes] model ∧
        ofJson (twoHopSchema.filter model)
            (expressionAlong [next, nodes] (.obj [("id", .obj [("eq", .num (.int 1))])])) =
          .ok (along [next, nodes] (.leaf "id" .eq (.value (.int 1)))) := by
  have hmodels : ∃ model ∈ twoHopSchema.models, model.name = "Node" ∧
      (ofJson (twoHopSchema.filter model) roundTrip).value?.isSome ∧
      (∃ next ∈ model.relationships.values, (next.name, next.target) = ("next", "Node")) ∧
      (∃ nodes ∈ model.relationships.values, (nodes.name, nodes.target) = ("nodes", "Node")) ∧
      ∃ field ∈ model.fields.values,
        (field.name, field.kind, field.list) = ("id", .integer, false) ∧
          .eq ∈ FilterOp.forField field.kind field.list field.nullable := by
    decide +kernel
  obtain ⟨model, hmodel, hname, hround, ⟨next, hnext, hnext_names⟩, ⟨nodes, hnodes, hnodes_names⟩,
    field, hfield, hshape, hop⟩ := hmodels
  simp only [Prod.mk.injEq] at hnext_names hnodes_names hshape
  obtain ⟨hnext_name, hnext_target⟩ := hnext_names
  obtain ⟨hnodes_name, hnodes_target⟩ := hnodes_names
  obtain ⟨hfield_name, hkind, hlist⟩ := hshape
  have hfound : twoHopSchema.model? "Node" = some model :=
    (Registry.sound_schema schema_twoHopRegistry).model?_eq_some.mpr ⟨hmodel, hname⟩
  have hleads : twoHopSchema.Leads model [next, nodes] model :=
    .follow hnext (hnext_target ▸ hfound) (.follow hnodes (hnodes_target ▸ hfound) (.stay model))
  obtain ⟨hbound, -, hread⟩ := hops_bounded schema_twoHopRegistry hmodel
  obtain ⟨filter, hfilter⟩ := Option.isSome_iff_exists.mp hround
  have hok := Checked.value?_eq_some.mp hfilter
  refine ⟨model, hmodel, ⟨filter, hok, fun passed part h => (hbound _ _ hok passed part h).1⟩,
    next, hnext, nodes, hnodes, hleads, ?_⟩
  have hoperand : Operand.read .eq field.kind field.list (.num (.int 1)) =
      .ok (.value (.int 1)) := by
    rw [hkind, hlist]
    rfl
  have hchain := hread [next, nodes] model hleads (Nat.le_refl 2) (by simp [*, combinators]) field
    hfield (by rw [hfield_name]; decide) .eq hop _ _ hoperand
  rwa [hfield_name] at hchain

end Filter

end ModelSurface
