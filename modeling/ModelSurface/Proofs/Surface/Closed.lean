import ModelSurface.Proofs.Surface.Declared

/-!
# Closed documents

The document of a schema mentions only types that it declares, or that need no declaration. What is
mentioned comes from a model of the schema or from a filter that one leads to, and all of these are
declared: relationships lead from models to models, and a filter leads to filters of the same walk.
-/

namespace ModelSurface

/-! ### Types that may be mentioned -/

namespace Schema

/-- A type that needs no declaration or has one in the document. -/
inductive Knows (schema : Schema) (name : String) : Prop where
  | standard (h : name ∈ BuiltIn.standardKinds.map Kind.typeName) : Knows schema name
  | declared (h : name ∈ schema.document.declared) : Knows schema name

variable {schema : Schema}

theorem mem_declared_of_scalar {name : String} (h : name ∈ schema.document.scalars) :
    name ∈ schema.document.declared :=
  List.mem_append_left _ h

theorem mem_declared_of_type {type : Declaration} (h : type ∈ schema.document.types) :
    type.name ∈ schema.document.declared :=
  List.mem_append_right _ (List.mem_map_of_mem h)

theorem knows_kind (schema : Schema) (kind : Kind) : schema.Knows kind.typeName := by
  have hkinds : ∀ kind ∈ Kind.all, kind.typeName ∈ BuiltIn.standardKinds.map Kind.typeName ∨
      kind.typeName ∈ BuiltIn.declaredScalars := by decide +kernel
  rcases hkinds kind kind.mem_all with hstandard | hdeclared
  · exact .standard hstandard
  · exact .declared (mem_declared_of_scalar (List.mem_append_left _ hdeclared))

theorem mem_types {type : Declaration} : type ∈ schema.document.types ↔
    type ∈ BuiltIn.declarations ∨ (∃ operators ∈ schema.operatorTypes,
      type = operators.declaration) ∨ (∃ model ∈ schema.models,
        type ∈ schema.modelDeclarations model) ∨ (∃ filter ∈ schema.filterTypes,
          type = filter.declaration) ∨ type ∈ Operation.root BuiltIn.query schema.queries ∨
            type ∈ Operation.root BuiltIn.mutation schema.mutations := by
  unfold document
  simp only [List.mem_append, List.mem_map, List.mem_flatMap, eq_comm (b := type), or_assoc]

theorem knows_builtIn (schema : Schema) {name : String}
    (h : name ∈ BuiltIn.declarations.map Declaration.name) : schema.Knows name := by
  obtain ⟨type, htype, rfl⟩ := List.mem_map.mp h
  exact .declared (mem_declared_of_type (mem_types.mpr (.inl htype)))

theorem names_modelDeclarations (schema : Schema) (model : Model) :
    (schema.modelDeclarations model).map Declaration.name =
      [Naming.output model.name, Naming.createInput model.name, Naming.updateInput model.name,
        Naming.deleteInput model.name, Naming.orderField model.name, Naming.orderBy model.name,
        Naming.page model.name] := rfl

theorem knows_brought {model : Model} (h : model ∈ schema.models) {name : String}
    (hname : name ∈ (schema.modelDeclarations model).map Declaration.name) :
    schema.Knows name := by
  obtain ⟨type, htype, rfl⟩ := List.mem_map.mp hname
  exact .declared (mem_declared_of_type (mem_types.mpr (.inr (.inr (.inl ⟨model, h, htype⟩)))))

theorem knows_output {model : Model} (h : model ∈ schema.models) :
    schema.Knows (Naming.output model.name) :=
  knows_brought h (by simp [names_modelDeclarations])

theorem knows_input {model : Model} (h : model ∈ schema.models) (kind : InputKind) :
    schema.Knows (InputType.nameOf kind model.name) :=
  knows_brought h (by cases kind <;> simp [names_modelDeclarations, InputType.nameOf])

theorem knows_orderField {model : Model} (h : model ∈ schema.models) :
    schema.Knows (Naming.orderField model.name) :=
  knows_brought h (by simp [names_modelDeclarations])

theorem knows_orderBy {model : Model} (h : model ∈ schema.models) :
    schema.Knows (Naming.orderBy model.name) :=
  knows_brought h (by simp [names_modelDeclarations])

theorem knows_page {model : Model} (h : model ∈ schema.models) :
    schema.Knows (Naming.page model.name) :=
  knows_brought h (by simp [names_modelDeclarations])

theorem knows_reference {model : Model} (h : model ∈ schema.models) :
    schema.Knows (Naming.reference model.name) :=
  .declared (mem_declared_of_scalar (List.mem_append_right _ (List.mem_map.mpr ⟨model, h, rfl⟩)))

theorem knows_filter {filter : FilterType} (h : filter ∈ schema.filters) :
    schema.Knows filter.name := by
  obtain ⟨kept, hkept, hname⟩ := (firstOfEach_cases FilterType.name _).2.2 filter h
  have htype : kept.declaration ∈ schema.document.types :=
    mem_types.mpr (.inr (.inr (.inr (.inl ⟨kept, hkept, rfl⟩))))
  rw [← hname]
  exact .declared (mem_declared_of_type htype)

theorem knows_operators {type : OperatorType} (h : type ∈ schema.operatorInputs) :
    schema.Knows type.name := by
  obtain ⟨kept, hkept, hname⟩ := (firstOfEach_cases OperatorType.name _).2.2 type h
  rw [← operators_eq] at hkept
  have htype : kept.declaration ∈ schema.document.types :=
    mem_types.mpr (.inr (.inl ⟨kept, hkept, rfl⟩))
  rw [← hname]
  exact .declared (mem_declared_of_type htype)

end Schema

/-! ### Declarations that mention known types only -/

namespace Schema

variable {schema : Schema}

/-- All that a declaration mentions is known. -/
def Closes (schema : Schema) (declaration : Declaration) : Prop :=
  ∀ name ∈ declaration.mentions, schema.Knows name

theorem closes_iff {declaration : Declaration} : schema.Closes declaration ↔
    ∀ member ∈ declaration.members, schema.Knows member.type.base ∧
      ∀ argument ∈ member.arguments, schema.Knows argument.2.base := by
  unfold Closes Declaration.mentions Member.mentions
  simp only [List.mem_flatMap, List.mem_cons, List.mem_map, forall_exists_index, and_imp]
  grind

theorem closes_builtIn {declaration : Declaration} (h : declaration ∈ BuiltIn.declarations) :
    schema.Closes declaration := by
  have hmentions : ∀ declaration ∈ BuiltIn.declarations, ∀ name ∈ declaration.mentions,
      (∃ kind ∈ Kind.all, name = kind.typeName) ∨
        name ∈ BuiltIn.declarations.map Declaration.name := by decide +kernel
  intro name hname
  rcases hmentions declaration h name hname with ⟨kind, -, rfl⟩ | hdeclared
  · exact schema.knows_kind kind
  · exact schema.knows_builtIn hdeclared

theorem base_operand (type : OperatorType) (op : FilterOp) :
    ∃ kind : Kind, (type.operand op).base = kind.typeName := by
  unfold OperatorType.operand
  cases op with
  | isNull => exact ⟨.boolean, rfl⟩
  | isIn | notIn => exact ⟨type.kind, TypeRef.base_expr _⟩
  | eq | ne => exact ⟨type.kind, TypeRef.base_expr _⟩
  | _ => exact ⟨type.kind, rfl⟩

theorem closes_operators (type : OperatorType) : schema.Closes type.declaration := by
  refine closes_iff.mpr fun member hmember => ?_
  obtain ⟨op, -, rfl⟩ := List.mem_map.mp hmember
  obtain ⟨kind, hkind⟩ := base_operand type op
  exact ⟨hkind ▸ schema.knows_kind kind, List.forall_mem_nil _⟩

theorem target_mem (hsound : schema.Sound) {model : Model} (hmodel : model ∈ schema.models)
    {relationship : Relationship} (h : relationship ∈ model.relationships.values) :
    ∃ target ∈ schema.models, target.name = relationship.target := by
  have htarget : ∃ target, schema.model? relationship.target = some target := by
    cases hside : relationship.ownership with
    | own =>
        exact (hsound.own model hmodel relationship h (Relationship.isOwn_iff.mpr hside)).2.2
    | remote field =>
        obtain ⟨target, -, htarget, -⟩ := hsound.remote model hmodel relationship h field hside
        exact ⟨target, htarget⟩
  obtain ⟨target, htarget⟩ := htarget
  exact ⟨target, hsound.model?_eq_some.mp htarget⟩

theorem closes_output (hsound : schema.Sound) {model : Model} (hmodel : model ∈ schema.models) :
    schema.Closes (OutputType.ofModel model).declaration := by
  refine closes_iff.mpr fun member hmember => ?_
  obtain ⟨field, hfield, rfl⟩ := List.mem_map.mp hmember
  refine ⟨?_, List.forall_mem_nil _⟩
  change schema.Knows field.type.expr.base
  rw [TypeRef.base_expr]
  rcases List.mem_append.mp hfield with hscalar | hrelation
  · obtain ⟨own, -, rfl⟩ := List.mem_map.mp hscalar
    exact schema.knows_kind own.kind
  · obtain ⟨relationship, hrelationship, rfl⟩ := List.mem_map.mp hrelation
    obtain ⟨target, htarget, hname⟩ := target_mem hsound hmodel hrelationship
    have htype : (OutputField.ofRelationship relationship).type.name =
        Naming.output relationship.target := by
      unfold OutputField.ofRelationship
      cases relationship.isMany <;> rfl
    rw [htype, ← hname]
    exact knows_output htarget

theorem closes_input (hsound : schema.Sound) (kind : InputKind) (model : Model) :
    schema.Closes (schema.input kind model).declaration := by
  refine closes_iff.mpr fun member hmember => ?_
  obtain ⟨field, hfield, rfl⟩ := List.mem_map.mp hmember
  refine ⟨?_, List.forall_mem_nil _⟩
  change schema.Knows field.type.expr.base
  rw [TypeRef.base_expr]
  rcases List.mem_append.mp hfield with hscalar | hrelation
  · obtain ⟨own, -, hsome⟩ := List.mem_filterMap.mp hscalar
    have hshape : field.shape = .scalar own.kind own.list := by
      unfold InputField.ofField? at hsome
      split at hsome
      · split at hsome
        · cases hsome
        · rw [← Option.some.inj hsome]
      · split at hsome
        · cases hsome
        · rw [← Option.some.inj hsome]
    unfold InputField.type
    rw [hshape]
    exact schema.knows_kind own.kind
  · split at hrelation
    · cases hrelation
    · obtain ⟨relationship, -, hsome⟩ := List.mem_filterMap.mp hrelation
      obtain ⟨target, htarget, rfl⟩ := Option.map_eq_some_iff.mp hsome
      obtain ⟨hmem, hname⟩ := hsound.model?_eq_some.mp htarget
      change schema.Knows (Naming.reference relationship.target)
      rw [← hname]
      exact knows_reference hmem

theorem closes_modelDeclarations (hsound : schema.Sound) {model : Model}
    (hmodel : model ∈ schema.models) :
    ∀ declaration ∈ schema.modelDeclarations model, schema.Closes declaration := by
  have hplain := List.forall_mem_nil fun argument : String × TypeExpr =>
    schema.Knows argument.2.base
  unfold modelDeclarations
  simp only [List.forall_mem_cons]
  refine ⟨closes_output hsound hmodel, closes_input hsound _ model, closes_input hsound _ model,
    closes_input hsound _ model, List.forall_mem_nil _, ?_, ?_, List.forall_mem_nil _⟩
  · have hdirection : schema.Knows BuiltIn.orderDirection :=
      schema.knows_builtIn (by decide +kernel)
    refine closes_iff.mpr ?_
    change ∀ member ∈ model.orderMembers, _
    unfold Model.orderMembers
    simp only [List.forall_mem_cons]
    exact ⟨⟨knows_orderField hmodel, hplain⟩, ⟨hdirection, hplain⟩, List.forall_mem_nil _⟩
  · have hpageInfo : schema.Knows BuiltIn.pageInfo := schema.knows_builtIn (by decide +kernel)
    refine closes_iff.mpr ?_
    change ∀ member ∈ model.pageMembers, _
    unfold Model.pageMembers
    simp only [List.forall_mem_cons]
    exact ⟨⟨knows_output hmodel, hplain⟩, ⟨schema.knows_kind .integer, hplain⟩,
      ⟨hpageInfo, hplain⟩, List.forall_mem_nil _⟩

/-! ### Filters and operations -/

theorem mem_walk_of_mem_relations {type other filter : FilterType} {relationship : Relationship}
    (hwalk : other ∈ type.walk) (h : (relationship, filter) ∈ other.relations) :
    filter ∈ type.walk := by
  rcases FilterType.mem_walk.mp hwalk with rfl | ⟨⟨first, next⟩, hnext, hother⟩
  · exact FilterType.mem_walk.mpr (.inr ⟨_, h, FilterType.mem_walk.mpr (.inl rfl)⟩)
  · have hless := FilterType.remaining_lt_of_mem_relations hnext
    exact FilterType.mem_walk.mpr (.inr ⟨_, hnext, mem_walk_of_mem_relations hother h⟩)
termination_by type.remaining

theorem closes_filter {filter : FilterType} (h : filter ∈ schema.filters) :
    schema.Closes filter.declaration := by
  refine closes_iff.mpr fun member hmember => ?_
  rcases List.mem_append.mp hmember with hcombinator | hfield
  · have hself : member.type.base = filter.name ∧ member.arguments = [] := by
      simp only [FilterType.combinators, List.mem_cons, List.not_mem_nil, or_false] at hcombinator
      rcases hcombinator with rfl | rfl | rfl <;> exact ⟨rfl, rfl⟩
    rw [hself.1, hself.2]
    exact ⟨knows_filter h, List.forall_mem_nil _⟩
  · obtain ⟨field, hmem, rfl⟩ := List.mem_map.mp hfield
    refine ⟨?_, List.forall_mem_nil _⟩
    change schema.Knows field.inputName
    cases field with
    | scalar name kind list nullable =>
        refine @knows_operators schema ⟨kind, list, nullable⟩ (List.mem_flatMap.mpr ?_)
        exact ⟨filter, h, List.mem_filterMap.mpr ⟨_, hmem, rfl⟩⟩
    | relation name target many inner =>
        obtain ⟨model, hmodel, hwalk⟩ := List.mem_flatMap.mp h
        refine knows_filter (List.mem_flatMap.mpr ⟨model, hmodel, ?_⟩)
        rcases List.mem_append.mp hmem with hscalar | hrelation
        · obtain ⟨own, -, hfalse⟩ := List.mem_map.mp hscalar
          cases hfalse
        · obtain ⟨⟨relationship, reached⟩, hreached, heq⟩ := List.mem_map.mp hrelation
          cases heq
          exact mem_walk_of_mem_relations hwalk hreached

/-- The filter that operations take is the one of the model, whatever the depth. -/
theorem knows_filterArgument {model : Model} (h : model ∈ schema.models) :
    schema.Knows (Naming.filter model.name 1 1) := by
  have hname : Naming.filter model.name 1 1 = (schema.filter model).name := by
    change _ = Naming.filter model.name schema.options.relationFilterDepth
      schema.options.relationFilterDepth
    rw [Naming.filter_eq, Naming.filter_eq]
    unfold Naming.filterEnding
    rw [if_pos rfl, if_pos rfl]
  rw [hname]
  exact knows_filter (List.mem_flatMap.mpr ⟨model, h, FilterType.mem_walk.mpr (.inl rfl)⟩)

/-- All types of an operation are known. -/
structure KnowsAll (schema : Schema) (operation : Operation) : Prop where
  returns : schema.Knows operation.returns.name
  arguments : ∀ argument ∈ operation.arguments, schema.Knows argument.type.name

theorem knowsAll_iff {operation : Operation} : schema.KnowsAll operation ↔
    schema.Knows operation.returns.name ∧
      ∀ argument ∈ operation.arguments, schema.Knows argument.type.name :=
  ⟨fun h => ⟨h.returns, h.arguments⟩, fun h => ⟨h.1, h.2⟩⟩

theorem knowsAll_queries {model : Model} (h : model ∈ schema.models) :
    ∀ operation ∈ Operation.queries model, schema.KnowsAll operation := by
  have hcount : ∀ name, schema.Knows (Operation.countArgument name).type.name :=
    fun _ => schema.knows_kind .integer
  unfold Operation.queries
  simp only [List.forall_mem_cons, knowsAll_iff]
  have hnone := List.forall_mem_nil fun argument : Argument => schema.Knows argument.type.name
  exact ⟨⟨knows_output h, schema.knows_kind _, hnone⟩, ⟨knows_output h, knows_filterArgument h,
    knows_orderBy h, hcount _, hcount _, hnone⟩, ⟨knows_page h, knows_filterArgument h,
    knows_orderBy h, hcount _, schema.knows_kind .string, hcount _, hnone⟩,
    List.forall_mem_nil _⟩

theorem knowsAll_mutations {model : Model} (h : model ∈ schema.models) :
    ∀ operation ∈ Operation.mutations model, schema.KnowsAll operation := by
  have hresult : schema.Knows BuiltIn.mutationResult := schema.knows_builtIn (by decide +kernel)
  have hpolicy : schema.Knows BuiltIn.bulkPolicy := schema.knows_builtIn (by decide +kernel)
  have hsingle : ∀ kind, ∀ argument ∈ [Operation.inputArgument (InputType.nameOf kind model.name)],
      schema.Knows argument.type.name := fun kind =>
    List.forall_mem_singleton.mpr (knows_input h kind)
  have hbulk : ∀ kind, ∀ argument ∈ Operation.bulkArguments (InputType.nameOf kind model.name),
      schema.Knows argument.type.name := fun kind =>
    List.forall_mem_cons.mpr ⟨knows_input h kind, List.forall_mem_singleton.mpr hpolicy⟩
  unfold Operation.mutations
  simp only [List.forall_mem_cons]
  exact ⟨⟨hresult, hsingle .create⟩, ⟨hresult, hsingle .update⟩, ⟨hresult, hsingle .delete⟩,
    ⟨hresult, hbulk .create⟩, ⟨hresult, hbulk .update⟩, ⟨hresult, hbulk .delete⟩,
    List.forall_mem_nil _⟩

theorem knowsAll_ofMethod (schema : Schema) (model : Model) (method : Method) :
    schema.KnowsAll (Operation.ofMethod model method) := by
  have hresult : schema.Knows BuiltIn.mutationResult := schema.knows_builtIn (by decide +kernel)
  refine ⟨hresult,
    List.forall_mem_cons.mpr ⟨schema.knows_kind _, fun argument hargument => ?_⟩⟩
  obtain ⟨param, -, rfl⟩ := List.mem_map.mp hargument
  exact schema.knows_kind param.kind

theorem knowsAll_of_mem {operation : Operation} (h : operation ∈ schema.operations) :
    schema.KnowsAll operation := by
  obtain ⟨model, hmodel, hoperation⟩ := mem_operations.mp h
  rcases List.mem_append.mp hoperation with hcommon | hmethod
  · rcases List.mem_append.mp hcommon with hquery | hmutation
    · exact knowsAll_queries hmodel operation hquery
    · exact knowsAll_mutations hmodel operation hmutation
  · obtain ⟨method, -, rfl⟩ := List.mem_map.mp hmethod
    exact schema.knowsAll_ofMethod model method

theorem closes_root {operations : List Operation}
    (h : ∀ operation ∈ operations, schema.KnowsAll operation) (name : String) :
    ∀ declaration ∈ Operation.root name operations, schema.Closes declaration := by
  unfold Operation.root
  split
  · exact List.forall_mem_nil _
  · refine List.forall_mem_singleton.mpr (closes_iff.mpr fun member hmember => ?_)
    obtain ⟨operation, hoperation, rfl⟩ := List.mem_map.mp hmember
    obtain ⟨hreturns, harguments⟩ := h operation hoperation
    refine ⟨?_, fun argument hargument => ?_⟩
    · change schema.Knows operation.returns.expr.base
      rwa [TypeRef.base_expr]
    · obtain ⟨own, hown, rfl⟩ := List.mem_map.mp hargument
      rw [TypeRef.base_expr]
      exact harguments own hown

/-- Nothing is mentioned that is neither declared nor standard. -/
theorem knows_of_mem_mentions (hsound : schema.Sound) {name : String}
    (h : name ∈ schema.document.mentions) : schema.Knows name := by
  obtain ⟨declaration, hdeclaration, hname⟩ := List.mem_flatMap.mp h
  suffices hcloses : schema.Closes declaration from hcloses name hname
  rcases mem_types.mp hdeclaration with hbuiltIn | ⟨operators, -, rfl⟩ | ⟨model, hmodel, hown⟩ |
    ⟨filter, hfilter, rfl⟩ | hquery | hmutation
  · exact closes_builtIn hbuiltIn
  · exact closes_operators operators
  · exact closes_modelDeclarations hsound hmodel declaration hown
  · exact closes_filter ((firstOfEach_cases FilterType.name _).2.1 filter hfilter)
  · exact closes_root (fun operation hmem => knowsAll_of_mem (List.mem_filter.mp hmem).1) _
      declaration hquery
  · exact closes_root (fun operation hmem => knowsAll_of_mem (List.mem_filter.mp hmem).1) _
      declaration hmutation

end Schema

namespace Registry

/-- The document of every schema declares each type once, and mentions only types that it declares
or that need no declaration. -/
theorem schema_document_closed {registry : Registry} {schema : Schema}
    (h : registry.schema = .ok schema) :
    schema.document.declared.Nodup ∧ ∀ name ∈ schema.document.mentions,
      name ∈ ["String", "Int", "Float", "Boolean"] ∨ name ∈ schema.document.declared := by
  refine ⟨Schema.nodup_declared (nodup_models_of_schema h) (unambiguous_of_schema h),
    fun name hname => ?_⟩
  cases Schema.knows_of_mem_mentions (sound_schema h) hname with
  | standard hstandard => exact .inl hstandard
  | declared hdeclared => exact .inr hdeclared

/-- A tree, whose filters lead back to the same model. -/
def tree : Registry where
  options := { relationFilterDepth := 2 }
  models :=
    [{ name := "Node"
       fields := [{ name := "label", kind := .string, nullable := true }]
       relations :=
         [{ name := "parent", target := "Node", kind := .foreignKey, nullable := true }] }]

theorem schema_document_closed_tree : ∃ schema, tree.schema = .ok schema ∧
    schema.filterTypes.map FilterType.name =
      ["NodeFilter", "NodeFilterDepth1", "NodeScalarFilter"] ∧
    schema.document.declared.Nodup ∧ ∀ name ∈ schema.document.mentions,
      name ∈ ["String", "Int", "Float", "Boolean"] ∨ name ∈ schema.document.declared := by
  have hfilters : tree.schema.toOption.map (fun schema =>
      schema.filterTypes.map FilterType.name) =
        some ["NodeFilter", "NodeFilterDepth1", "NodeScalarFilter"] := by
    decide +kernel
  cases hschema : tree.schema with
  | error conflict =>
      rw [hschema] at hfilters
      cases hfilters
  | ok schema =>
      rw [hschema] at hfilters
      exact ⟨schema, rfl, Option.some.inj hfilters, schema_document_closed hschema⟩

end Registry

end ModelSurface
