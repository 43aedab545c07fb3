import ModelSurface.Proofs.Filter.Shape
import ModelSurface.Proofs.Schema.Sound

/-!
# What filter types list can be read

The fields of a filter type come from a model, whose members may have any valid name; the reader
gives three names a meaning of its own. So a filter on a field that is listed is read as one,
except where the field has the name of a combinator: then it is listed and cannot be reached.
-/

namespace ModelSurface

namespace FilterType

/-! ### The models of filter types -/

/-- A filter type of a model of the schema, which leads to models of the schema. -/
structure Within (schema : Schema) (type : FilterType) : Prop where
  model : type.model ∈ schema.models
  target? : type.target? = schema.model?

theorem mem_relations {type filter : FilterType} {relationship : Relationship} :
    (relationship, filter) ∈ type.relations ↔
      relationship ∈ type.model.relationships.values ∧ ∃ remaining target,
        type.remaining = remaining + 1 ∧ type.target? relationship.target = some target ∧
          filter = { type with model := target, remaining := remaining } := by
  unfold relations
  split
  · rename_i hnone
    simp [hnone]
  · rename_i remaining hsome
    simp only [List.mem_filterMap, Option.map_eq_some_iff, Prod.mk.injEq, hsome]
    constructor
    · rintro ⟨other, hmem, target, htarget, rfl, rfl⟩
      exact ⟨hmem, remaining, target, rfl, htarget, rfl⟩
    · rintro ⟨hmem, left, target, hleft, htarget, rfl⟩
      obtain rfl : remaining = left := Nat.succ.inj hleft
      exact ⟨relationship, hmem, target, htarget, rfl, rfl⟩

theorem mem_walk {type other : FilterType} :
    other ∈ type.walk ↔
      other = type ∨ ∃ entry ∈ type.relations, other ∈ entry.2.walk := by
  rw [walk]
  simp only [List.mem_cons, List.mem_flatMap, List.mem_attach, true_and]
  refine or_congr_right ⟨?_, ?_⟩
  · rintro ⟨⟨entry, hentry⟩, hwalk⟩
    exact ⟨entry, hentry, hwalk⟩
  · rintro ⟨entry, hentry, hwalk⟩
    exact ⟨⟨entry, hentry⟩, hwalk⟩

variable {schema : Schema} {type : FilterType}

theorem Within.relation (h : type.Within schema) (hsound : schema.Sound) {filter : FilterType}
    {relationship : Relationship} (hmem : (relationship, filter) ∈ type.relations) :
    filter.Within schema := by
  obtain ⟨-, remaining, target, -, htarget, rfl⟩ := mem_relations.mp hmem
  rw [h.target?] at htarget
  exact ⟨(hsound.model?_eq_some.mp htarget).1, h.target?⟩

theorem Within.walk {type : FilterType} (h : type.Within schema) (hsound : schema.Sound)
    {other : FilterType} (hwalk : other ∈ type.walk) : other.Within schema := by
  rcases mem_walk.mp hwalk with rfl | ⟨⟨relationship, filter⟩, hmem, hother⟩
  · exact h
  · have hless := remaining_lt_of_mem_relations hmem
    exact (h.relation hsound hmem).walk hsound hother
termination_by type.remaining

/-- Every filter type to which the filter of a model leads is one of a model of the schema. -/
theorem within_of_mem_walk (hsound : schema.Sound) {model : Model} (hmodel : model ∈ schema.models)
    (hwalk : type ∈ (schema.filter model).walk) : type.Within schema :=
  Within.walk ⟨hmodel, rfl⟩ hsound hwalk

/-! ### Fields are found by their names -/

theorem relations_sublist (type : FilterType) :
    (type.relations.map (·.1)).Sublist type.model.relationships.values := by
  unfold relations
  split
  · exact List.nil_sublist _
  · induction type.model.relationships.values with
    | nil => exact List.Sublist.refl _
    | cons relationship rest ih =>
        rw [List.filterMap_cons]
        cases type.target? relationship.target with
        | none => exact ih.cons relationship
        | some target => exact ih.cons_cons relationship

theorem scalar_mem_fields {field : Field} (h : field ∈ type.model.fields.values) :
    .scalar field.name field.kind field.list field.nullable ∈ type.fields :=
  List.mem_append_left _ (List.mem_map.mpr ⟨field, h, rfl⟩)

theorem names_fields (type : FilterType) :
    type.fields.map FilterField.name = type.model.fields.values.map Field.name ++
      (type.relations.map (·.1)).map Relationship.name := by
  unfold fields
  rw [List.map_append, List.map_map, List.map_map, List.map_map]
  rfl

theorem nodup_names (hmodel : type.model.Sound) :
    (type.fields.map FilterField.name).Nodup := by
  have hrelations := (relations_sublist type).map Relationship.name
  rw [names_fields]
  refine List.nodup_append.mpr
    ⟨hmodel.fields_named.nodup_names, hmodel.relationships.nodup_names.sublist hrelations, ?_⟩
  intro name hname other hother
  obtain ⟨field, hfield, rfl⟩ := List.mem_map.mp hname
  obtain ⟨relationship, hmem, rfl⟩ := List.mem_map.mp (hrelations.subset hother)
  intro heq
  exact hmodel.not_mem_fields hmem (heq ▸ hmodel.mem_fields_keys hfield)

theorem field?_of_mem (hmodel : type.model.Sound) {field : FilterField}
    (hfield : field ∈ type.fields) : type.field? field.name = some field :=
  find?_eq_some_of_nodup (nodup_names hmodel) hfield

end FilterType

namespace Filter

variable {type : FilterType}

theorem read_leaf_iff (hmodel : type.model.Sound) {field : String} {kind : Kind}
    {list nullable : Bool} (hfield : .scalar field kind list nullable ∈ type.fields)
    {op : FilterOp} (hop : op ∈ FilterOp.forField kind list nullable) {json : Json}
    {operand : Operand} (hread : Operand.read op kind list json = .ok operand) :
    ofJson type (Json.object [(field, Json.object [(op.name, json)])]) =
        .ok (.leaf field op operand) ↔ field ∉ combinators := by
  constructor
  · intro hok
    cases fits_of_read hok with
    | leaf hname => exact hname
  · intro hname
    exact read_leaf hname (FilterType.field?_of_mem hmodel hfield) hop hread "filter"

theorem read_related_iff (hmodel : type.model.Sound) {relation target : String} {many : Bool}
    {inner : FilterType} (hfield : .relation relation target many inner ∈ type.fields)
    {json : Json} {filter : Filter} (hread : ofJson inner json = .ok filter) :
    ofJson type (Json.object [(relation, json)]) = .ok (.related relation target filter) ↔
      relation ∉ combinators := by
  constructor
  · intro hok
    cases fits_of_read hok with
    | related hname => exact hname
  · intro hname
    have hfound := FilterType.field?_of_mem hmodel hfield
    exact read_related hname hfound "filter" (read_of_read hread _)

/-- A predicate on a field that a filter type lists, with one of the operators of the field, and a
filter on a relation that it lists are read as what they say, exactly if the member does not have
the name of a combinator. -/
theorem listed_read_iff {registry : Registry} {schema : Schema}
    (hschema : registry.schema = .ok schema) {model : Model} (hmodel : model ∈ schema.models)
    {type : FilterType} (htype : type ∈ (schema.filter model).walk) :
    (∀ field kind list nullable, .scalar field kind list nullable ∈ type.fields →
      ∀ op ∈ FilterOp.forField kind list nullable, ∀ json operand,
        Operand.read op kind list json = .ok operand →
          (ofJson type (Json.object [(field, Json.object [(op.name, json)])]) =
            .ok (.leaf field op operand) ↔ field ∉ combinators)) ∧
      ∀ relation target many inner, .relation relation target many inner ∈ type.fields →
        ∀ json filter, ofJson inner json = .ok filter →
          (ofJson type (Json.object [(relation, json)]) =
            .ok (.related relation target filter) ↔ relation ∉ combinators) := by
  have hsound := Registry.sound_schema hschema
  have hwithin := FilterType.within_of_mem_walk hsound hmodel htype
  have htypeModel := hsound.model _ hwithin.model
  constructor
  · intro field kind list nullable hfield op hop json operand hread
    exact read_leaf_iff htypeModel hfield hop hread
  · intro relation target many inner hfield json filter hread
    exact read_related_iff htypeModel hfield hread

/-- Gates that have a field by the name of a combinator. -/
def gateRegistry : Registry where
  models := [{ name := "Gate", fields := [{ name := "and", kind := .boolean }] }]

def gateSchema : Schema := gateRegistry.schema.toOption.getD {}

theorem schema_gateRegistry : gateRegistry.schema = .ok gateSchema :=
  Registry.schema_eq_ok {} (by decide +kernel)

theorem listed_read_iff_gate : ∃ model ∈ gateSchema.models,
    ofJson (gateSchema.filter model) (.obj [("id", .obj [("eq", .num (.int 1))])]) =
      .ok (.leaf "id" .eq (.value (.int 1))) := by
  have hlisted : ∃ model ∈ gateSchema.models, ∃ field ∈ model.fields.values,
      (field.name, field.kind, field.list) = ("id", .integer, false) ∧
        .eq ∈ FilterOp.forField field.kind field.list field.nullable := by
    decide +kernel
  obtain ⟨model, hmodel, field, hfield, hshape, hop⟩ := hlisted
  simp only [Prod.mk.injEq] at hshape
  obtain ⟨hname, hkind, hlist⟩ := hshape
  have hmem : .scalar field.name field.kind field.list field.nullable ∈
      (gateSchema.filter model).fields := FilterType.scalar_mem_fields hfield
  have hread : Operand.read .eq field.kind field.list (.num (.int 1)) = .ok (.value (.int 1)) := by
    rw [hkind, hlist]
    rfl
  have hiff := (listed_read_iff schema_gateRegistry hmodel
    (FilterType.mem_walk.mpr (.inl rfl))).1 _ _ _ _ hmem _ hop _ _ hread
  rw [hname] at hiff
  exact ⟨model, hmodel, hiff.mpr (by decide)⟩

/-- The field is listed, with an operator for which an operand is read, and no filter on it is. -/
theorem listed_unread_gate : ∃ model ∈ gateSchema.models, ∃ nullable,
    gateRegistry.schema = .ok gateSchema ∧
      .scalar "and" .boolean false nullable ∈ (gateSchema.filter model).fields ∧
      .eq ∈ FilterOp.forField .boolean false nullable ∧
      Operand.read .eq .boolean false (.bool true) = .ok (.value (.bool true)) ∧
      ∀ filter, ofJson (gateSchema.filter model) (.obj [("and", .obj [("eq", .bool true)])]) ≠
        .ok filter := by
  have hlisted : ∃ model ∈ gateSchema.models, ∃ field ∈ model.fields.values,
      (field.name, field.kind, field.list) = ("and", .boolean, false) := by
    decide +kernel
  obtain ⟨model, hmodel, field, hfield, hshape⟩ := hlisted
  simp only [Prod.mk.injEq] at hshape
  obtain ⟨hname, hkind, hlist⟩ := hshape
  have hmem : .scalar field.name field.kind field.list field.nullable ∈
      (gateSchema.filter model).fields := FilterType.scalar_mem_fields hfield
  rw [hname, hkind, hlist] at hmem
  refine ⟨model, hmodel, field.nullable, schema_gateRegistry, hmem, List.mem_cons_self, rfl, ?_⟩
  intro filter hread
  cases hread

end Filter

end ModelSurface
