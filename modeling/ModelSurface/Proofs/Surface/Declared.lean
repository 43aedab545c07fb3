import ModelSurface.Proofs.Surface.Distinct
import ModelSurface.Render.SchemaText

/-!
# Each type is declared once

What the document of a schema declares has a name of the surface, so that declarations of different
origins have different names. Those of one origin are few, except filters and operator inputs,
which are met many times and written once.
-/

namespace ModelSurface

/-! ### The first of each name -/

namespace Schema

variable {α : Type} {name : α → String}

theorem firstOfEach_cases (name : α → String) (items : List α) :
    ((firstOfEach name items).map name).Nodup ∧ (∀ item ∈ firstOfEach name items, item ∈ items) ∧
      ∀ item ∈ items, ∃ kept ∈ firstOfEach name items, name kept = name item := by
  -- the entries kept so far are some of those before, and have all of their names
  suffices h : ∀ kept : Keyed α, kept.NamedBy name →
      let all := items.foldl (fun (kept : Keyed α) item =>
        if kept.contains (name item) then kept else kept.put (name item) item) kept
      all.NamedBy name ∧ (∀ item ∈ all.values, item ∈ kept.values ∨ item ∈ items) ∧
        ∀ key, key ∈ kept.keys ∨ key ∈ items.map name → key ∈ all.keys by
    obtain ⟨hnamed, hfrom, hkeys⟩ := h .empty .empty
    refine ⟨hnamed.nodup_names, fun item hitem => ?_, fun item hitem => ?_⟩
    · exact (hfrom item hitem).resolve_left List.not_mem_nil
    · exact hnamed.mem_keys.mp (hkeys (name item) (.inr (List.mem_map_of_mem hitem)))
  induction items with
  | nil =>
      intro kept hnamed
      exact ⟨hnamed, fun item hitem => .inl hitem,
        fun key hkey => hkey.resolve_right List.not_mem_nil⟩
  | cons item items ih =>
      intro kept hnamed
      rw [List.foldl_cons]
      split
      · rename_i hcontains
        obtain ⟨hall, hfrom, hkeys⟩ := ih kept hnamed
        refine ⟨hall, fun other hother => ?_, fun key hkey => hkeys key ?_⟩
        · exact (hfrom other hother).imp_right (List.mem_cons_of_mem item)
        · rw [List.map_cons, List.mem_cons] at hkey
          rcases hkey with hkept | rfl | hrest
          · exact .inl hkept
          · exact .inl (Keyed.isSome_get?_iff.mp hcontains)
          · exact .inr hrest
      · obtain ⟨hall, hfrom, hkeys⟩ := ih (kept.put (name item) item) (hnamed.put rfl)
        refine ⟨hall, fun other hother => ?_, fun key hkey => hkeys key ?_⟩
        · rcases hfrom other hother with hput | hrest
          · rcases Keyed.mem_values_put hput with rfl | hkept
            · exact .inr List.mem_cons_self
            · exact .inl hkept
          · exact .inr (List.mem_cons_of_mem item hrest)
        · rw [Keyed.mem_keys_put]
          rw [List.map_cons, List.mem_cons] at hkey
          grind

end Schema

/-! ### Declarations -/

namespace Schema

variable {schema : Schema}

/-- All of these names belong to things of one sort. -/
def Owns (schema : Schema) (sort : Origin → Prop) (names : List String) : Prop :=
  ∀ name ∈ names, ∃ origin, sort origin ∧ schema.Names origin name

theorem Owns.append {sort other : Origin → Prop} {names others : List String}
    (h : schema.Owns sort names) (hothers : schema.Owns other others) :
    schema.Owns (fun origin => sort origin ∨ other origin) (names ++ others) := by
  intro name hname
  rcases List.mem_append.mp hname with hfirst | hsecond
  · obtain ⟨origin, hsort, hnamed⟩ := h name hfirst
    exact ⟨origin, .inl hsort, hnamed⟩
  · obtain ⟨origin, hsort, hnamed⟩ := hothers name hsecond
    exact ⟨origin, .inr hsort, hnamed⟩

/-- Things of different sorts have different names. -/
theorem Owns.disjoint {sort other : Origin → Prop} {names others : List String}
    (hnames : schema.Unambiguous) (h : schema.Owns sort names) (hothers : schema.Owns other others)
    (hsorts : ∀ origin, sort origin → ¬ other origin) : List.Disjoint names others := by
  intro name hfirst hsecond
  obtain ⟨origin, hsort, hnamed⟩ := h name hfirst
  obtain ⟨second, hother, hsecond_named⟩ := hothers name hsecond
  exact hsorts origin hsort (hnames name origin second hnamed hsecond_named ▸ hother)

/-- The names that the document gives to what comes from no model. -/
def builtInNames (schema : Schema) : List String :=
  (BuiltIn.declaredScalars ++ BuiltIn.declarations.map Declaration.name ++
    (Operation.root BuiltIn.query schema.queries ++
      Operation.root BuiltIn.mutation schema.mutations).map Declaration.name) ++
    schema.operatorTypes.map OperatorType.name

theorem declared_perm (schema : Schema) : schema.document.declared.Perm
    (schema.builtInNames ++ (schema.models.map (fun model => Naming.reference model.name) ++
      ((schema.models.flatMap fun model => (schema.modelDeclarations model).map Declaration.name) ++
        schema.filterTypes.map FilterType.name))) := by
  have hoperators : (schema.operatorTypes.map OperatorType.declaration).map Declaration.name =
      schema.operatorTypes.map OperatorType.name := List.map_map
  have hfilters : (schema.filterTypes.map FilterType.declaration).map Declaration.name =
      schema.filterTypes.map FilterType.name := List.map_map
  refine List.perm_iff_count.mpr fun name => ?_
  unfold SchemaDocument.declared document builtInNames
  simp only [List.map_append, hoperators, hfilters, List.map_flatMap, List.count_append]
  omega

theorem filters_eq (schema : Schema) :
    schema.filterTypes = firstOfEach FilterType.name schema.filters := rfl

theorem operators_eq (schema : Schema) :
    schema.operatorTypes = firstOfEach OperatorType.name schema.operatorInputs := by
  unfold operatorTypes operatorInputs filters
  rw [List.flatMap_assoc]

theorem root_sublist (name : String) (operations : List Operation) :
    ((Operation.root name operations).map Declaration.name).Sublist [name] := by
  unfold Operation.root
  split
  · exact List.nil_sublist _
  · exact List.Sublist.refl _

/-- The names that come from no model, whether or not there are operations. -/
theorem builtIn_sublist (schema : Schema) :
    (BuiltIn.declaredScalars ++ BuiltIn.declarations.map Declaration.name ++
      (Operation.root BuiltIn.query schema.queries ++
        Operation.root BuiltIn.mutation schema.mutations).map Declaration.name).Sublist
    (BuiltIn.declaredScalars ++ BuiltIn.declarations.map Declaration.name ++
      [BuiltIn.query, BuiltIn.mutation]) := by
  rw [List.map_append]
  exact (List.Sublist.refl _).append ((root_sublist _ _).append (root_sublist _ _))

theorem operators_apart : ∀ kind ∈ Kind.all, ∀ list nullable : Bool,
    FilterOp.typeName kind list nullable ∉
      BuiltIn.declaredScalars ++ BuiltIn.declarations.map Declaration.name ++
        [BuiltIn.query, BuiltIn.mutation] := by
  decide +kernel

theorem nodup_builtInNames (schema : Schema) : schema.builtInNames.Nodup := by
  have hfixed : (BuiltIn.declaredScalars ++ BuiltIn.declarations.map Declaration.name ++
      [BuiltIn.query, BuiltIn.mutation]).Nodup := by decide +kernel
  refine List.Nodup.append (hfixed.sublist schema.builtIn_sublist) ?_ ?_
  · rw [operators_eq]
    exact (firstOfEach_cases OperatorType.name _).1
  · intro name hname hoperator
    obtain ⟨type, -, rfl⟩ := List.mem_map.mp hoperator
    exact operators_apart type.kind type.kind.mem_all type.list type.nullable
      (schema.builtIn_sublist.subset hname)

theorem owns_builtInNames (schema : Schema) :
    schema.Owns (· = .builtIn) schema.builtInNames := by
  have hfixed : ∀ name ∈ BuiltIn.declaredScalars ++ BuiltIn.declarations.map Declaration.name ++
      [BuiltIn.query, BuiltIn.mutation], name ∈ BuiltIn.all := by decide +kernel
  intro name hname
  refine ⟨.builtIn, rfl, ?_⟩
  rcases List.mem_append.mp hname with hbuiltIn | hoperator
  · exact .builtIn (hfixed name (schema.builtIn_sublist.subset hbuiltIn))
  · obtain ⟨type, htype, rfl⟩ := List.mem_map.mp hoperator
    rw [operators_eq] at htype
    exact .operators ((firstOfEach_cases OperatorType.name _).2.1 type htype)

/-- What a model brings to the document, filters and its reference apart. -/
inductive Brings (model : String) : Origin → Prop where
  | output : Brings model (.output model)
  | input : Brings model (.input model)
  | ordering : Brings model (.ordering model)
  | page : Brings model (.page model)

theorem Brings.model_eq {model other : String} {origin : Origin} (h : Brings model origin)
    (hother : Brings other origin) : model = other := by
  cases h <;> cases hother <;> rfl

theorem owns_modelDeclarations {model : Model} (h : model ∈ schema.models) :
    schema.Owns (Brings model.name) ((schema.modelDeclarations model).map Declaration.name) := by
  intro name hname
  have hcases : name = (OutputType.ofModel model).name ∨
      (∃ kind, name = (schema.input kind model).name) ∨ name = Naming.orderField model.name ∨
        name = Naming.orderBy model.name ∨ name = Naming.page model.name := by
    simp only [modelDeclarations, List.map_cons, List.map_nil, List.mem_cons, List.not_mem_nil,
      or_false] at hname
    rcases hname with rfl | rfl | rfl | rfl | rfl | rfl | rfl
    · exact .inl rfl
    · exact .inr (.inl ⟨.create, rfl⟩)
    · exact .inr (.inl ⟨.update, rfl⟩)
    · exact .inr (.inl ⟨.delete, rfl⟩)
    · exact .inr (.inr (.inl rfl))
    · exact .inr (.inr (.inr (.inl rfl)))
    · exact .inr (.inr (.inr (.inr rfl)))
  rcases hcases with rfl | ⟨kind, rfl⟩ | rfl | rfl | rfl
  · exact ⟨_, .output, .output h⟩
  · exact ⟨_, .input, .input h kind⟩
  · exact ⟨_, .ordering, .orderField h⟩
  · exact ⟨_, .ordering, .orderBy h⟩
  · exact ⟨_, .page, .page h⟩

theorem nodup_inputs (model : String) :
    [Naming.createInput model, Naming.updateInput model, Naming.deleteInput model].Nodup := by
  have hcreate : Naming.createInput model = "Create" ++ (Text.capitalCase model ++ "Input") :=
    String.append_assoc
  have hupdate : Naming.updateInput model = "Update" ++ (Text.capitalCase model ++ "Input") :=
    String.append_assoc
  have hdelete : Naming.deleteInput model = "Delete" ++ (Text.capitalCase model ++ "Input") :=
    String.append_assoc
  rw [hcreate, hupdate, hdelete]
  simp [String.append_left_inj]

theorem orderField_ne_orderBy (model : String) :
    Naming.orderField model ≠ Naming.orderBy model := by
  intro h
  exact absurd ((String.append_right_inj (Text.capitalCase model)).mp h) (by decide)

theorem nodup_modelDeclarations (hnames : schema.Unambiguous) {model : Model}
    (h : model ∈ schema.models) :
    ((schema.modelDeclarations model).map Declaration.name).Nodup := by
  have houtput : schema.Owns (· = .output model.name) [Naming.output model.name] := by
    intro name hname
    obtain rfl := List.mem_singleton.mp hname
    exact ⟨_, rfl, .output h⟩
  have hinput : schema.Owns (· = .input model.name) [Naming.createInput model.name,
      Naming.updateInput model.name, Naming.deleteInput model.name] := by
    intro name hname
    simp only [List.mem_cons, List.not_mem_nil, or_false] at hname
    rcases hname with rfl | rfl | rfl
    · exact ⟨_, rfl, .input h .create⟩
    · exact ⟨_, rfl, .input h .update⟩
    · exact ⟨_, rfl, .input h .delete⟩
  have hordering : schema.Owns (· = .ordering model.name)
      [Naming.orderField model.name, Naming.orderBy model.name] := by
    intro name hname
    simp only [List.mem_cons, List.not_mem_nil, or_false] at hname
    rcases hname with rfl | rfl
    · exact ⟨_, rfl, .orderField h⟩
    · exact ⟨_, rfl, .orderBy h⟩
  have hpage : schema.Owns (· = .page model.name) [Naming.page model.name] := by
    intro name hname
    obtain rfl := List.mem_singleton.mp hname
    exact ⟨_, rfl, .page h⟩
  have hlate : (_ ++ _ : List String).Nodup := List.Nodup.append
    (by simpa using orderField_ne_orderBy model.name) (List.nodup_singleton _)
    (hordering.disjoint hnames hpage (by rintro _ rfl hsame; cases hsame))
  have hmiddle : (_ ++ _ : List String).Nodup := List.Nodup.append
    (nodup_inputs model.name) hlate
    (hinput.disjoint hnames (hordering.append hpage)
      (by rintro _ rfl (hsame | hsame) <;> cases hsame))
  exact List.Nodup.append (List.nodup_singleton _) hmiddle
    (houtput.disjoint hnames (hinput.append (hordering.append hpage))
      (by rintro _ rfl (hsame | hsame | hsame) <;> cases hsame))

/-- No type is declared twice. -/
theorem nodup_declared (hmodels : (schema.models.map Model.name).Nodup)
    (hnames : schema.Unambiguous) : schema.document.declared.Nodup := by
  have hreferences : schema.Owns (fun origin => ∃ model, origin = .reference model)
      (schema.models.map fun model => Naming.reference model.name) := by
    intro name hname
    obtain ⟨model, hmodel, rfl⟩ := List.mem_map.mp hname
    exact ⟨_, ⟨model.name, rfl⟩, .reference hmodel⟩
  have hbrought : schema.Owns (fun origin => ∃ model, Brings model origin)
      (schema.models.flatMap fun model =>
        (schema.modelDeclarations model).map Declaration.name) := by
    intro name hname
    obtain ⟨model, hmodel, hmem⟩ := List.mem_flatMap.mp hname
    obtain ⟨origin, hbrings, hnamed⟩ := owns_modelDeclarations hmodel name hmem
    exact ⟨origin, ⟨model.name, hbrings⟩, hnamed⟩
  have hfilters : schema.Owns (fun origin => ∃ model, origin = .filter model)
      (schema.filterTypes.map FilterType.name) := by
    intro name hname
    obtain ⟨filter, hfilter, rfl⟩ := List.mem_map.mp hname
    exact ⟨_, ⟨_, rfl⟩, .filter ((firstOfEach_cases FilterType.name _).2.1 filter hfilter)⟩
  have hreference_nodup :
      (schema.models.map fun model => Naming.reference model.name).Nodup := by
    refine (List.Nodup.of_map _ hmodels).map_on fun first hfirst second hsecond hsame => ?_
    have hnamed : schema.Names (.reference first.name) (Naming.reference second.name) :=
      hsame ▸ .reference hfirst
    have horigin := hnames _ _ _ hnamed (.reference hsecond)
    exact List.inj_on_of_nodup_map hmodels hfirst hsecond (by injection horigin)
  have hbrought_nodup : (schema.models.flatMap fun model =>
      (schema.modelDeclarations model).map Declaration.name).Nodup := by
    refine List.nodup_flatMap.mpr
      ⟨fun model hmodel => nodup_modelDeclarations hnames hmodel, ?_⟩
    refine List.Pairwise.imp_of_mem ?_ (List.pairwise_map.mp hmodels)
    intro first second hfirst hsecond hne
    refine (owns_modelDeclarations hfirst).disjoint hnames (owns_modelDeclarations hsecond) ?_
    exact fun origin hfirst hsecond => hne (hfirst.model_eq hsecond)
  rw [(declared_perm schema).nodup_iff]
  refine List.Nodup.append schema.nodup_builtInNames
    (List.Nodup.append hreference_nodup (List.Nodup.append hbrought_nodup
      (firstOfEach_cases FilterType.name _).1 ?_) ?_) ?_
  · refine hbrought.disjoint hnames hfilters ?_
    rintro _ ⟨model, hbrings⟩ ⟨other, rfl⟩
    cases hbrings
  · refine hreferences.disjoint hnames (hbrought.append hfilters) ?_
    rintro _ ⟨model, rfl⟩ (⟨other, hbrings⟩ | ⟨other, hsame⟩)
    · cases hbrings
    · cases hsame
  · refine schema.owns_builtInNames.disjoint hnames
      (hreferences.append (hbrought.append hfilters)) ?_
    rintro _ rfl (⟨model, hsame⟩ | ⟨model, hbrings⟩ | ⟨model, hsame⟩)
    · cases hsame
    · cases hbrings
    · cases hsame

end Schema

end ModelSurface
