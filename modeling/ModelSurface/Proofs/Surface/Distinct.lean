import ModelSurface.Proofs.Results
import ModelSurface.Proofs.Surface.Names

/-!
# Schemas without conflicts

A registry has a schema exactly if its models have different names and no name of its surface
belongs to two things. Then nothing that is generated hides anything else: what has one name is one
filter type, one operator input, one operation. The kind of an operation and its model say which
operation it is; the model of a filter type and how far it leads say which filter type it is.
-/

namespace ModelSurface

/-! ### Filters and operator inputs -/

namespace Naming

/-- What tells the filters of a model apart. -/
def filterEnding (remaining depth : Nat) : String :=
  if remaining = depth then "Filter"
  else if remaining = 0 then "ScalarFilter"
  else "FilterDepth" ++ toString remaining

theorem filter_eq (model : String) (remaining depth : Nat) :
    filter model remaining depth = Text.capitalCase model ++ filterEnding remaining depth := by
  unfold filter filterEnding
  dsimp only
  split
  · rfl
  · split
    · rfl
    · exact String.append_assoc

theorem toString_inj {n m : Nat} (h : toString n = toString m) : n = m := by
  have hdigits := congrArg (fun text => Nat.ofDigitChars 10 text.toList 0) h
  simpa [Nat.toString_eq_ofList_toDigits] using hdigits

theorem filterEnding_inj {remaining other depth : Nat}
    (h : filterEnding remaining depth = filterEnding other depth) : remaining = other := by
  have hfull : ∀ n : Nat, "Filter" ≠ "FilterDepth" ++ toString n := by
    intro n heq
    simpa using congrArg String.toList heq
  have hscalar : ∀ n : Nat, "ScalarFilter" ≠ "FilterDepth" ++ toString n := by
    intro n heq
    simpa using congrArg String.toList heq
  unfold filterEnding at h
  by_cases hremaining : remaining = depth <;> by_cases hother : other = depth
  · rw [hremaining, hother]
  · rw [if_pos hremaining, if_neg hother] at h
    split at h
    · exact absurd h (by decide)
    · exact absurd h (hfull other)
  · rw [if_neg hremaining, if_pos hother] at h
    split at h
    · exact absurd h (by decide)
    · exact absurd h.symm (hfull remaining)
  · rw [if_neg hremaining, if_neg hother] at h
    by_cases hzero : remaining = 0 <;> by_cases hnone : other = 0
    · rw [hzero, hnone]
    · rw [if_pos hzero, if_neg hnone] at h
      exact absurd h (hscalar other)
    · rw [if_neg hzero, if_pos hnone] at h
      exact absurd h.symm (hscalar remaining)
    · rw [if_neg hzero, if_neg hnone] at h
      exact toString_inj ((String.append_right_inj _).mp h)

end Naming

theorem FilterOp.typeName_inj : ∀ kind ∈ Kind.all, ∀ other ∈ Kind.all,
    ∀ list otherList nullable otherNullable : Bool,
      typeName kind list nullable = typeName other otherList otherNullable →
        kind = other ∧ list = otherList ∧ nullable = otherNullable := by
  decide +kernel

/-- Operator inputs are told apart by their names. -/
theorem OperatorType.name_inj {type other : OperatorType} (h : type.name = other.name) :
    type = other := by
  obtain ⟨kind, list, nullable⟩ := type
  obtain ⟨otherKind, otherList, otherNullable⟩ := other
  obtain ⟨rfl, rfl, rfl⟩ := FilterOp.typeName_inj kind kind.mem_all otherKind otherKind.mem_all
    list otherList nullable otherNullable h
  rfl

theorem FilterType.depth_of_mem_walk {type other : FilterType} (h : other ∈ type.walk) :
    other.depth = type.depth := by
  rcases mem_walk.mp h with rfl | ⟨⟨relationship, filter⟩, hmem, hother⟩
  · rfl
  · have hless := remaining_lt_of_mem_relations hmem
    obtain ⟨-, _, _, -, -, heq⟩ := mem_relations.mp hmem
    rw [depth_of_mem_walk hother, heq]
termination_by type.remaining

namespace Schema

variable {schema : Schema}

theorem within_of_mem_filters (hsound : schema.Sound) {filter : FilterType}
    (h : filter ∈ schema.filters) :
    filter.Within schema ∧ filter.depth = schema.options.relationFilterDepth := by
  obtain ⟨model, hmodel, hwalk⟩ := List.mem_flatMap.mp h
  exact ⟨FilterType.within_of_mem_walk hsound hmodel hwalk,
    FilterType.depth_of_mem_walk hwalk⟩

/-- Filter types are told apart by their names: those of one model by how far they lead, and those
of different models since no name belongs to two models. -/
theorem filter_ext (hsound : schema.Sound) (hnames : schema.Unambiguous)
    {filter other : FilterType} (hfilter : filter ∈ schema.filters)
    (hother : other ∈ schema.filters) (hname : filter.name = other.name) : filter = other := by
  obtain ⟨hwithin, hdepth⟩ := within_of_mem_filters hsound hfilter
  obtain ⟨hwithin_other, hdepth_other⟩ := within_of_mem_filters hsound hother
  have hnamed : schema.Names (.filter filter.model.name) other.name := hname ▸ .filter hfilter
  have horigin := hnames _ _ _ hnamed (.filter hother)
  have hmodel : other.model = filter.model :=
    hsound.model_ext hwithin.model hwithin_other.model (by injection horigin with h; exact h.symm)
  obtain ⟨model, target?, remaining, depth⟩ := filter
  obtain ⟨otherModel, otherTarget?, otherRemaining, otherDepth⟩ := other
  obtain rfl : otherModel = model := hmodel
  obtain rfl : target? = otherTarget? := hwithin.target?.trans hwithin_other.target?.symm
  obtain rfl : depth = otherDepth := hdepth.trans hdepth_other.symm
  have hending :
      Naming.filterEnding remaining depth = Naming.filterEnding otherRemaining depth := by
    refine (String.append_right_inj (Text.capitalCase otherModel.name)).mp ?_
    rw [← Naming.filter_eq, ← Naming.filter_eq]
    exact hname
  rw [Naming.filterEnding_inj hending]

end Schema

/-! ### Operations -/

/-- The name of the method, if there is one. -/
def OperationKind.method? : OperationKind → Option String
  | .method name => some name
  | _ => none

/-- The kinds of the operations on a model: nine that all models have, and one for each method. -/
def Model.operationKinds (model : Model) : List OperationKind :=
  OperationKind.common ++ model.methods.values.map fun method => .method method.name

theorem Operation.kinds_ofModel (model : Model) :
    (ofModel model).map Operation.kind = model.operationKinds := by
  unfold ofModel Model.operationKinds
  rw [List.map_append, List.map_map]
  rfl

theorem Model.nodup_operationKinds {model : Model} (h : model.methods.NamedBy Method.name) :
    model.operationKinds.Nodup := by
  refine List.nodup_append.mpr ⟨by decide, ?_, ?_⟩
  · have hnames := h.nodup_names.map (Option.some_injective String)
    rw [List.map_map] at hnames
    refine List.Nodup.of_map OperationKind.method? ?_
    rw [List.map_map]
    exact hnames
  · intro kind hkind other hother
    obtain ⟨method, -, rfl⟩ := List.mem_map.mp hother
    rintro rfl
    simp [OperationKind.common] at hkind

namespace Schema

variable {schema : Schema}

theorem keys_operations (schema : Schema) :
    schema.operations.map (fun operation => (operation.model, operation.kind)) =
      schema.models.flatMap fun model => model.operationKinds.map (model.name, ·) := by
  unfold operations
  rw [List.map_flatMap]
  refine List.flatMap_congr fun model _ => ?_
  rw [← Operation.kinds_ofModel, List.map_map]
  refine List.map_congr_left fun operation hop => ?_
  rw [Schema.model_of_mem_ofModel hop]
  rfl

theorem nodup_keys_operations (hmodels : (schema.models.map Model.name).Nodup)
    (hmethods : ∀ model ∈ schema.models, model.methods.NamedBy Method.name) :
    (schema.operations.map fun operation => (operation.model, operation.kind)).Nodup := by
  rw [keys_operations]
  refine List.nodup_flatMap.mpr ⟨fun model hmodel => ?_, ?_⟩
  · exact (Model.nodup_operationKinds (hmethods model hmodel)).map (Prod.mk_right_injective _)
  · refine List.Pairwise.imp_of_mem ?_ (List.pairwise_map.mp hmodels)
    intro first second _ _ hne key hfirst hsecond
    obtain ⟨_, -, rfl⟩ := List.mem_map.mp hfirst
    obtain ⟨_, -, heq⟩ := List.mem_map.mp hsecond
    exact hne (Prod.mk.inj heq).1.symm

/-- Operations are told apart by their names. -/
theorem nodup_names_operations (hnames : schema.Unambiguous)
    (hkeys : (schema.operations.map fun operation => (operation.model, operation.kind)).Nodup) :
    (schema.operations.map Operation.name).Nodup := by
  refine (List.Nodup.of_map _ hkeys).map_on fun first hfirst second hsecond hname => ?_
  have hnamed : schema.Names (.operation first.model first.kind) second.name :=
    hname ▸ .operation hfirst
  have horigin := hnames _ _ _ hnamed (.operation hsecond)
  refine List.inj_on_of_nodup_map hkeys hfirst hsecond ?_
  injection horigin with hmodel hkind
  rw [hmodel, hkind]

theorem operation?_eq_some (h : (schema.operations.map Operation.name).Nodup) {name : String}
    {operation : Operation} : schema.operation? name = some operation ↔
      operation ∈ schema.operations ∧ operation.name = name := by
  unfold operation?
  constructor
  · intro hfound
    exact ⟨List.mem_of_find?_eq_some hfound, by simpa using List.find?_some hfound⟩
  · rintro ⟨hmem, rfl⟩
    exact find?_eq_some_of_nodup h hmem

end Schema

/-! ### The schema of a registry -/

/-- What one can rely on when all names are different things. -/
structure Schema.Distinct (schema : Schema) : Prop where
  /-- Every model with records is there, under its name. -/
  models : ∀ name model, model ∈ schema.models ∧ model.name = name ↔
    schema.descriptors.get? name = some model ∧ model.isAbstract = false
  /-- Every model has its nine operations and those of its methods, and there are no others. -/
  operations : schema.operations.map (fun operation => (operation.model, operation.kind)) =
    schema.models.flatMap fun model => model.operationKinds.map (model.name, ·)
  names : (schema.operations.map Operation.name).Nodup
  operation? : ∀ name operation, schema.operation? name = some operation ↔
    operation ∈ schema.operations ∧ operation.name = name
  filters : ∀ filter ∈ schema.filters, ∀ other ∈ schema.filters,
    filter.name = other.name → filter = other
  operators : ∀ type ∈ schema.operatorInputs, ∀ other ∈ schema.operatorInputs,
    type.name = other.name → type = other
  /-- Origins that are told alike are the same. -/
  origins : ∀ origin other name otherName, schema.Names origin name →
    schema.Names other otherName → origin.text = other.text → origin = other

namespace Registry

variable {registry : Registry}

/-- What is generated for a registry, be there conflicts or not. -/
def surface (registry : Registry) (found : Introspection) : Schema :=
  ⟨registry.options, found.models, found.issues⟩

theorem schema_eq_ok_iff {schema : Schema} : registry.schema = .ok schema ↔
    ∃ found, registry.introspect = .ok found ∧ schema = registry.surface found ∧
      schema.Unambiguous := by
  have hagree : ∀ found, NameClaim.conflict? (registry.surface found).claims = none ↔
      (registry.surface found).Unambiguous := fun _ =>
    NameClaim.conflict?_eq_none_iff.trans Schema.agree_claims_iff
  unfold Registry.schema
  rw [except_bind_eq_ok]
  refine exists_congr fun found => and_congr_right fun _ => ?_
  dsimp only
  split
  · rename_i conflict hconflict
    refine iff_of_false (fun h => by cases h) ?_
    rintro ⟨rfl, hnames⟩
    cases hconflict.symm.trans ((hagree found).mpr hnames)
  · rename_i hnone
    rw [Except.ok.injEq]
    refine ⟨?_, fun h => h.1.symm⟩
    rintro rfl
    exact ⟨rfl, (hagree found).mp hnone⟩

/-- Methods have different names, and the names of their models have no dots. -/
theorem methods_of_introspect {found : Introspection} (h : registry.introspect = .ok found)
    {name : String} {model : Model} (hmodel : found.models.get? name = some model) :
    model.methods.NamedBy Method.name ∧ Naming.isValid model.name := by
  obtain ⟨hnames, issues, rfl, -⟩ := introspect_eq_ok h
  obtain ⟨draft, hdraft, hbare⟩ := (Introspection.ofDrafts_names registry.sound_drafts
    (nodup_drafts hnames) issues).2 name model hmodel
  have hname : model.name = draft.model.name :=
    congrArg (fun bare => bare.name) (show model.bare = draft.model.bare from hbare)
  rw [(Model.eq_of_bare hbare).2, hname]
  exact ⟨(clean_drafts hnames draft hdraft).methods, (registry.sound_drafts draft hdraft).name⟩

theorem unambiguous_of_schema {schema : Schema} (h : registry.schema = .ok schema) :
    schema.Unambiguous := by
  obtain ⟨-, -, -, hnames⟩ := schema_eq_ok_iff.mp h
  exact hnames

theorem nodup_models_of_schema {schema : Schema} (h : registry.schema = .ok schema) :
    (schema.models.map Model.name).Nodup := by
  obtain ⟨found, hfound, rfl, -⟩ := schema_eq_ok_iff.mp h
  exact (sound_introspect hfound).named.nodup_names.sublist (List.filter_sublist.map _)

theorem distinct_schema {schema : Schema} (h : registry.schema = .ok schema) :
    schema.Distinct := by
  have hsound := sound_schema h
  obtain ⟨found, hfound, rfl, hnames⟩ := schema_eq_ok_iff.mp h
  have hget : ∀ model ∈ (registry.surface found).models,
      found.models.get? model.name = some model := fun model hmodel =>
    (sound_introspect hfound).named.get?_eq_some.mpr ⟨(List.mem_filter.mp hmodel).1, rfl⟩
  have hdescribed := fun model hmodel => methods_of_introspect hfound (hget model hmodel)
  have hmodels := nodup_models_of_schema h
  have hkeys := Schema.nodup_keys_operations hmodels fun model hmodel => (hdescribed model hmodel).1
  have hoperations := Schema.nodup_names_operations hnames hkeys
  refine ⟨fun name model => ?_, Schema.keys_operations _, hoperations,
    fun _ _ => Schema.operation?_eq_some hoperations,
    fun filter hfilter other hother => Schema.filter_ext hsound hnames hfilter hother,
    fun _ _ _ _ => OperatorType.name_inj, fun origin other name otherName hfirst hsecond => ?_⟩
  · rw [← hsound.model?_eq_some, Schema.model?, Option.filter_eq_some_iff, Bool.not_eq_true']
  · have hdotless : ∀ origin name, (registry.surface found).Names origin name →
        origin.Dotless := by
      intro origin name hnamed
      cases hnamed with
      | operation hmem =>
          obtain ⟨model, hmodel, hop⟩ := Schema.mem_operations.mp hmem
          rw [Schema.model_of_mem_ofModel hop]
          intro hdot
          have hvalid := Naming.isValid_iff.mp (hdescribed model hmodel).2
          exact absurd (hvalid.parts _ hdot) (by decide)
      | _ => trivial
    exact Origin.eq_of_text (hdotless _ _ hfirst) (hdotless _ _ hsecond)

/-- A registry has no schema exactly if two of its models share a name, or a name of its surface
belongs to two things. In a schema nothing hides anything else. -/
theorem schema_conflicts_iff (registry : Registry) :
    ((∃ conflict, registry.schema = .error conflict) ↔
      ¬ (registry.models.map (·.name)).Nodup ∨
        ∃ found name first second, registry.introspect = .ok found ∧ first ≠ second ∧
          (registry.surface found).Names first name ∧
          (registry.surface found).Names second name) ∧
    ∀ schema, registry.schema = .ok schema → schema.Distinct := by
  refine ⟨⟨fun ⟨conflict, hconflict⟩ => ?_, ?_⟩, fun schema => distinct_schema⟩
  · by_cases hmodels : (registry.models.map (·.name)).Nodup
    · obtain ⟨found, hfound⟩ := introspect_of_nodup hmodels
      by_cases hnames : (registry.surface found).Unambiguous
      · rw [schema_eq_ok_iff.mpr ⟨found, hfound, rfl, hnames⟩] at hconflict
        cases hconflict
      · unfold Schema.Unambiguous at hnames
        push Not at hnames
        obtain ⟨name, first, second, hfirst, hsecond, hne⟩ := hnames
        exact .inr ⟨found, name, first, second, hfound, hne, hfirst, hsecond⟩
    · exact .inl hmodels
  · intro h
    cases hschema : registry.schema with
    | error conflict => exact ⟨conflict, rfl⟩
    | ok schema =>
        obtain ⟨found, hfound, rfl, hnames⟩ := schema_eq_ok_iff.mp hschema
        rcases h with hmodels | ⟨other, name, first, second, hother, hne, hfirst, hsecond⟩
        · exact absurd (introspect_eq_ok hfound).1 hmodels
        · obtain rfl := Except.ok.inj (hfound.symm.trans hother)
          exact absurd (hnames name first second hfirst hsecond) hne

/-- The authors of a library: the filter of each model leads to the other one. -/
def shelfModels : List ModelDef :=
  [{ name := "Author"
     fields := [{ name := "name", kind := .string }]
     methods := [{ name := "retire", exposed := true }] },
   { name := "Book"
     fields := [{ name := "title", kind := .string, nullable := true }]
     relations := [{ name := "author", target := "Author", kind := .foreignKey }] }]

theorem schema_conflicts_iff_shelf :
    ∃ schema, Registry.schema { models := shelfModels } = .ok schema ∧
      schema.operations.length = 19 ∧ schema.Distinct := by
  have hlength : (Registry.schema { models := shelfModels }).toOption.map (fun schema =>
      schema.operations.length) = some 19 := by
    decide +kernel
  cases hschema : Registry.schema { models := shelfModels } with
  | error conflict =>
      rw [hschema] at hlength
      cases hlength
  | ok schema =>
      rw [hschema] at hlength
      exact ⟨schema, rfl, Option.some.inj hlength, (schema_conflicts_iff _).2 schema hschema⟩

end Registry

end ModelSurface
