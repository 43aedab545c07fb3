import Mathlib.Data.List.Flatten
import ModelSurface.Proofs.Described
import ModelSurface.Proofs.Engine.Call
import ModelSurface.Proofs.Surface.Declared
import ModelSurface.Proofs.Text.Words
import ModelSurface.Render.SchemaBindings

/-!
# Names in generated bindings

What is declared in the bindings of a schema has names of its surface, so that no two items share
one, wherever they are declared; and the modules have the names of operations, so that they differ
too. The rest is not looked after: the file of one module may be that of the index, an underscore
behind a word that cannot be marked may give the name of another member, and members with different
names may have one camel case. For each of the three it is said exactly when names clash.
-/

namespace ModelSurface

/-! ### Identifiers -/

namespace Identifier

variable {name other : String}

theorem ofName_eq (name : String) : ofName name =
    if name ∈ pathWords then { text := name ++ "_" }
    else { text := name, raw := decide (name ∈ keywords) } := by
  simp only [ofName, List.contains_eq_mem, decide_eq_true_eq]

theorem text_ofName (name : String) :
    (ofName name).text = if name ∈ pathWords then name ++ "_" else name := by
  rw [ofName_eq]
  split <;> rfl

/-- What becomes of a word that cannot be marked is the identifier of another name. -/
theorem ofName_underscore : ∀ word ∈ pathWords,
    ofName word = ofName (word ++ "_") ∧ word ++ "_" ≠ word := by
  decide +kernel

/-- Names share their identifier if one of them gets an underscore and is the other one then. -/
theorem ofName_eq_iff : ofName name = ofName other ↔
    name = other ∨ (name ∈ pathWords ∧ other = name ++ "_") ∨
      (other ∈ pathWords ∧ name = other ++ "_") := by
  constructor
  · intro h
    have htext := congrArg text h
    rw [text_ofName, text_ofName] at htext
    split at htext <;> split at htext
    · exact .inl ((String.append_left_inj _).mp htext)
    · rename_i hname _
      exact .inr (.inl ⟨hname, htext.symm⟩)
    · rename_i _ hother
      exact .inr (.inr ⟨hother, htext⟩)
    · exact .inl htext
  · rintro (rfl | ⟨hword, rfl⟩ | ⟨hword, rfl⟩)
    · rfl
    · exact (ofName_underscore _ hword).1
    · exact (ofName_underscore _ hword).1.symm

/-- Where the sign of marks is not part of texts, identifiers are told apart by their code. -/
theorem eq_of_code {first second : Identifier} (hfirst : '#' ∉ first.text.toList)
    (hsecond : '#' ∉ second.text.toList) (h : first.code = second.code) : first = second := by
  have hmarked : ∀ text : String, '#' ∈ ("r#" ++ text).toList := fun text => by
    rw [String.toList_append]
    exact List.mem_append_left _ (by decide)
  obtain ⟨text, raw⟩ := first
  obtain ⟨other, mark⟩ := second
  cases raw <;> cases mark
  · exact congrArg (Identifier.mk · false) h
  · obtain rfl : text = "r#" ++ other := h
    exact absurd (hmarked other) hfirst
  · obtain rfl : "r#" ++ text = other := h
    exact absurd (hmarked text) hsecond
  · exact congrArg (Identifier.mk · true) ((String.append_right_inj _).mp h)

theorem sign_notMem_ofName (h : Naming.isValid name) : '#' ∉ (ofName name).text.toList := by
  have hname : '#' ∉ name.toList := fun hmem =>
    absurd ((Naming.isValid_iff.mp h).parts _ hmem) (by decide)
  rw [text_ofName]
  split
  · rw [String.toList_append]
    exact List.not_mem_append hname (by decide)
  · exact hname

/-- The identifiers of different names are different, unless one of the names gets an underscore
and the other one has it. -/
theorem nodup_codes_iff {names : List String} (hdistinct : names.Nodup)
    (hvalid : ∀ name ∈ names, Naming.isValid name) :
    (names.map fun name => (ofName name).code).Nodup ↔
      ∀ word ∈ pathWords, word ∈ names → word ++ "_" ∉ names := by
  rw [List.nodup_map_iff_inj_on hdistinct]
  constructor
  · intro hinj word hword hname hother
    obtain ⟨hsame, hne⟩ := ofName_underscore word hword
    exact hne (hinj word hname _ hother (congrArg code hsame)).symm
  · intro hfree name hname other hother heq
    have hsame := eq_of_code (sign_notMem_ofName (hvalid name hname))
      (sign_notMem_ofName (hvalid other hother)) heq
    rcases ofName_eq_iff.mp hsame with hsame | ⟨hword, rfl⟩ | ⟨hword, rfl⟩
    · exact hsame
    · exact absurd hother (hfree name hword hname)
    · exact absurd hname (hfree other hword hother)

end Identifier

/-! ### Structures -/

namespace BindingField

/-- The name of the member that a field of a structure stands for. -/
def member (field : BindingField) : String := field.rename.getD field.identifier.text

theorem member_ofName (name : String) (type : BindingType) (doc : Option String) (skipped : Bool) :
    (ofName name type doc skipped).member = name := by
  unfold ofName member Identifier.rename?
  dsimp only
  split
  · rename_i hsame
    exact beq_iff_eq.mp hsame
  · rfl

theorem ofInput_eq (kind : InputKind) (field : InputField) :
    ∃ type skipped, ofInput kind field = ofName field.name type field.description skipped := by
  unfold ofInput
  dsimp only
  split <;> exact ⟨_, _, rfl⟩

end BindingField

namespace BindingStruct

def members (item : BindingStruct) : List String := item.fields.map BindingField.member

def identifiers (item : BindingStruct) : List String :=
  item.fields.map fun field => field.identifier.code

/-- Each field has the identifier that the name of its member gives. -/
def Named (item : BindingStruct) : Prop :=
  ∀ field ∈ item.fields, field.identifier = .ofName field.member

variable {item : BindingStruct}

/-- The identifiers of a structure clash exactly if an underscore makes one member another. -/
theorem Named.nodup_identifiers_iff (h : item.Named) (hdistinct : item.members.Nodup)
    (hvalid : ∀ name ∈ item.members, Naming.isValid name) : item.identifiers.Nodup ↔
      ∀ word ∈ Identifier.pathWords, word ∈ item.members → word ++ "_" ∉ item.members := by
  have hcodes : item.identifiers = item.members.map fun name => (Identifier.ofName name).code := by
    unfold identifiers members
    rw [List.map_map]
    exact List.map_congr_left fun field hfield => congrArg Identifier.code (h field hfield)
  rw [hcodes]
  exact Identifier.nodup_codes_iff hdistinct hvalid

end BindingStruct

namespace Model

/-- The names of all fields and relationships of a model, held or not. -/
def memberNames (model : Model) : List String := model.fields.keys ++ model.relationships.keys

variable {model : Model}

theorem Sound.nodup_memberNames (h : model.Sound) : model.memberNames.Nodup :=
  List.nodup_append'.mpr ⟨h.fields_named.distinct, h.relationships.distinct,
    fun _ hfield hrelationship => h.apart _ hrelationship hfield⟩

theorem Sound.members_sublist (h : model.Sound) : model.members.Sublist model.memberNames := by
  refine (List.Sublist.refl _).append ?_
  rw [← h.relationships.map_name]
  exact List.filter_sublist.map Relationship.name

theorem Sound.sortableFields_sublist (h : model.Sound) :
    model.sortableFields.Sublist model.memberNames := by
  refine List.Sublist.trans ?_ (List.sublist_append_left _ _)
  rw [← h.fields_named.map_name]
  exact List.filter_sublist.map Field.name

end Model

theorem map_filterMap_sublist {α β γ : Type} {part : α → Option β} {name : α → γ}
    {partName : β → γ} (h : ∀ a b, part a = some b → partName b = name a) (items : List α) :
    ((items.filterMap part).map partName).Sublist (items.map name) := by
  induction items with
  | nil => exact List.Sublist.slnil
  | cons a rest ih =>
      rw [List.map_cons]
      cases hpart : part a with
      | none =>
          rw [List.filterMap_cons_none hpart]
          exact ih.cons _
      | some b =>
          rw [List.filterMap_cons_some hpart, List.map_cons, h a b hpart]
          exact ih.cons_cons _

namespace BindingStruct

variable {model : Model}

theorem named_ofModel (target? : String → Option Model) (model : Model) :
    (ofModel target? model).Named := by
  have hnamed : ∀ name type doc, (BindingField.ofName name type doc).identifier =
      .ofName (BindingField.ofName name type doc).member := fun name type doc =>
    congrArg Identifier.ofName (BindingField.member_ofName name type doc false).symm
  intro field hfield
  rcases List.mem_append.mp hfield with hscalar | hreference
  · obtain ⟨_, -, rfl⟩ := List.mem_map.mp hscalar
    exact hnamed _ _ _
  · obtain ⟨_, -, hmap⟩ := List.mem_filterMap.mp hreference
    obtain ⟨_, -, rfl⟩ := Option.map_eq_some_iff.mp hmap
    exact hnamed _ _ _

theorem named_ofInput (type : InputType) : (ofInput type).Named := by
  intro field hfield
  obtain ⟨input, -, rfl⟩ := List.mem_map.mp hfield
  obtain ⟨_, _, heq⟩ := BindingField.ofInput_eq type.kind input
  rw [heq]
  exact congrArg Identifier.ofName (BindingField.member_ofName _ _ _ _).symm

/-- A record shows all that is held, since each reference leads to a model. -/
theorem members_ofModel (h : model.Sound) {target? : String → Option Model}
    (htargets : ∀ relationship ∈ model.relationships.values, relationship.isOwn →
      ∃ target, target? relationship.target = some target) :
    (ofModel target? model).members = model.members := by
  unfold members Model.members
  rw [← h.fields_named.map_name]
  change List.map _ (_ ++ _) = _
  rw [List.map_append, List.map_map, List.map_filterMap]
  congr 1
  · exact List.map_congr_left fun field _ => BindingField.member_ofName _ _ _ _
  · rw [← List.filterMap_eq_map]
    refine List.filterMap_congr fun relationship hmem => ?_
    obtain ⟨hrelationship, hown⟩ := List.mem_filter.mp hmem
    obtain ⟨target, htarget⟩ := htargets relationship hrelationship hown
    rw [htarget]
    exact congrArg some (BindingField.member_ofName _ _ _ _)

theorem members_ofInput (type : InputType) :
    (ofInput type).members = type.fields.map InputField.name := by
  unfold members ofInput
  dsimp only
  rw [List.map_map]
  refine List.map_congr_left fun field _ => ?_
  obtain ⟨_, _, heq⟩ := BindingField.ofInput_eq type.kind field
  exact (congrArg BindingField.member heq).trans (BindingField.member_ofName _ _ _ _)

theorem members_ofInput_sublist (h : model.Sound) (target? : String → Option Model)
    (kind : InputKind) :
    (ofInput (.ofModel target? kind model)).members.Sublist model.memberNames := by
  have hfield : ∀ field input, InputField.ofField? kind field = some input →
      input.name = field.name := by
    intro field input hinput
    unfold InputField.ofField? at hinput
    grind
  rw [members_ofInput, Model.memberNames, ← h.fields_named.map_name, ← h.relationships.map_name,
    InputType.ofModel, List.map_append]
  refine (map_filterMap_sublist hfield _).append ?_
  split
  · exact List.nil_sublist _
  · refine map_filterMap_sublist (fun relationship input hinput => ?_) _
    obtain ⟨_, -, rfl⟩ := Option.map_eq_some_iff.mp hinput
    rfl

end BindingStruct

/-! ### Bindings of a schema -/

namespace ModelBindings

/-- The names of what a module declares. -/
def items (bindings : ModelBindings) : List String :=
  bindings.structs.map BindingStruct.name ++ [bindings.order.name]

/-- The module as the index declares it. -/
def moduleCode (bindings : ModelBindings) : String :=
  (Identifier.ofName bindings.moduleName).code

end ModelBindings

namespace Schema

variable {schema : Schema} {model : Model}

/-- What the four structures of a model show. -/
theorem members_modelBindings (hsound : schema.Sound) (hmodel : model ∈ schema.models) :
    (schema.modelBindings model).structs.map BindingStruct.members =
      model.members :: [InputKind.create, .update, .delete].map fun kind =>
        (schema.input kind model).fields.map InputField.name := by
  have hrecord : (BindingStruct.ofModel schema.model? model).members = model.members :=
    BindingStruct.members_ofModel (hsound.model model hmodel) fun relationship hmem hown =>
      (hsound.own model hmodel relationship hmem hown).2.2
  have hinput := fun kind => BindingStruct.members_ofInput (schema.input kind model)
  simp only [ModelBindings.structs, List.map_cons, List.map_nil, List.cons.injEq, and_true]
  exact ⟨hrecord, hinput .create, hinput .update, hinput .delete⟩

theorem struct_of_modelBindings (hsound : schema.Sound) (hmodel : model ∈ schema.models)
    {item : BindingStruct} (hitem : item ∈ (schema.modelBindings model).structs) :
    item.Named ∧ item.members.Sublist model.memberNames := by
  have hmodel_sound := hsound.model model hmodel
  simp only [ModelBindings.structs, List.mem_cons, List.not_mem_nil, or_false] at hitem
  rcases hitem with rfl | rfl | rfl | rfl
  · refine ⟨BindingStruct.named_ofModel _ _, ?_⟩
    rw [show (schema.modelBindings model).record.members = model.members from
      (List.cons.inj (members_modelBindings hsound hmodel)).1]
    exact hmodel_sound.members_sublist
  all_goals
    exact ⟨BindingStruct.named_ofInput _, BindingStruct.members_ofInput_sublist hmodel_sound _ _⟩

theorem nodup_items (hmodels : (schema.models.map Model.name).Nodup)
    (hnames : schema.Unambiguous) : (schema.bindings.flatMap ModelBindings.items).Nodup := by
  have hdeclared := ((declared_perm schema).nodup_iff.mp (nodup_declared hmodels hnames))
  have hbrought := (List.nodup_append.mp (List.nodup_append.mp
    (List.nodup_append.mp hdeclared).2.1).2.1).1
  refine hbrought.sublist ?_
  rw [bindings, List.flatMap_map]
  refine List.Sublist.flatMap_right _ fun model _ => ?_
  exact List.sublist_append_left _ [Naming.orderBy model.name, Naming.page model.name]

/-- The modules have the names of operations, and no two models have one of these. -/
theorem nodup_singulars (hmodels : (schema.models.map Model.name).Nodup)
    (hnames : schema.Unambiguous) : (schema.models.map Model.singular).Nodup := by
  have hsingle : ∀ model ∈ schema.models,
      schema.Names (.operation model.name .single) model.singular := fun model hmodel =>
    .operation (mem_operations.mpr ⟨model, hmodel,
      List.mem_append_left _ (List.mem_append_left _ List.mem_cons_self)⟩)
  refine (List.Nodup.of_map _ hmodels).map_on fun first hfirst second hsecond hsame => ?_
  have horigin := hnames _ _ _ (hsame ▸ hsingle first hfirst) (hsingle second hsecond)
  exact List.inj_on_of_nodup_map hmodels hfirst hsecond (by injection horigin)

/-- Only the file of a model that is called as the index is may clash with another one. -/
theorem nodup_bindingFiles_iff (hmodels : (schema.models.map Model.name).Nodup)
    (hnames : schema.Unambiguous) : (schema.bindingFiles.map GeneratedFile.name).Nodup ↔
      ∀ model ∈ schema.models, model.singular ≠ "mod" := by
  have hfiles : schema.bindingFiles.map GeneratedFile.name =
      (schema.models.map Model.singular).map (· ++ ".rs") ++ ["mod" ++ ".rs"] := by
    unfold bindingFiles bindings
    rw [List.map_append, List.map_map, List.map_map, List.map_map]
    rfl
  have hmodules := (nodup_singulars hmodels hnames).map
    (f := (· ++ ".rs")) fun _ _ => (String.append_left_inj _).mp
  rw [hfiles, List.nodup_append]
  constructor
  · rintro ⟨-, -, hapart⟩ model hmodel hname
    exact hapart _ (List.mem_map_of_mem (List.mem_map_of_mem hmodel)) _
      (List.mem_singleton_self _) (congrArg (· ++ ".rs") hname)
  · intro hother
    refine ⟨hmodules, List.nodup_singleton _, ?_⟩
    rintro _ hfirst _ hindex heq
    obtain ⟨_, hsingular, rfl⟩ := List.mem_map.mp hfirst
    obtain ⟨model, hmodel, rfl⟩ := List.mem_map.mp hsingular
    rw [List.mem_singleton.mp hindex] at heq
    exact hother model hmodel ((String.append_left_inj _).mp heq)

/-- The index declares each module once: no module has a name that ends in an underscore, so that
none is what another one becomes. -/
theorem nodup_moduleCodes (hmodels : (schema.models.map Model.name).Nodup)
    (hnames : schema.Unambiguous) (hvalid : ∀ model ∈ schema.models, Naming.isValid model.name) :
    (schema.bindings.map ModelBindings.moduleCode).Nodup := by
  have hcodes : schema.bindings.map ModelBindings.moduleCode =
      (schema.models.map Model.singular).map fun name => (Identifier.ofName name).code := by
    rw [bindings, List.map_map, List.map_map]
    rfl
  have hsnake : ∀ name ∈ schema.models.map Model.singular,
      Naming.isValid name ∧ name.toList.getLast? ≠ some '_' := by
    intro name hname
    obtain ⟨model, hmodel, rfl⟩ := List.mem_map.mp hname
    have hmodel_valid := hvalid model hmodel
    exact ⟨Naming.isValid_snakeCase hmodel_valid, Text.getLast?_snakeCase hmodel_valid⟩
  rw [hcodes, Identifier.nodup_codes_iff (nodup_singulars hmodels hnames)
    fun name hname => (hsnake name hname).1]
  intro word _ _ hmem
  apply (hsnake _ hmem).2
  rw [String.toList_append, List.getLast?_append_of_ne_nil _ (by decide)]
  rfl

end Schema

namespace BindingEnum

variable {model : Model}

theorem renames_ofModel (model : Model) :
    (ofModel model).variants.map BindingVariant.rename = model.sortableFields := by
  unfold ofModel
  rw [List.map_map]
  exact List.map_id _

/-- Camel case tells variants apart as far as snake case does without the underscores in front of
digits. -/
theorem nodup_variants_iff (hdistinct : model.sortableFields.Nodup)
    (hvalid : ∀ name ∈ model.sortableFields, Naming.isValid name) :
    ((ofModel model).variants.map BindingVariant.name).Nodup ↔
      ∀ first ∈ model.sortableFields, ∀ second ∈ model.sortableFields,
        Text.joinDigits (Text.snakeCase first).toList =
          Text.joinDigits (Text.snakeCase second).toList → first = second := by
  have hnames : (ofModel model).variants.map BindingVariant.name =
      model.sortableFields.map Text.capitalCase := List.map_map
  rw [hnames, List.nodup_map_iff_inj_on hdistinct]
  refine forall₂_congr fun first hfirst => forall₂_congr fun second hsecond => ?_
  rw [Text.capitalCase_eq_iff (hvalid first hfirst) (hvalid second hsecond)]

end BindingEnum

namespace Registry

/-- **When names clash in bindings.** Of the files only that of a model called `Mod` may have the
name of another one, which is that of the index. The index declares each module once, and no two
items that are declared in any of the modules have the same name. The fields of a structure stand
for different members; their identifiers are different exactly if there is no member that a word
which gets an underscore becomes. The variants of an order are different exactly if the fields they
stand for differ in snake case, even without the underscores in front of digits. -/
theorem bindings_clash_iff {registry : Registry} {schema : Schema}
    (h : registry.schema = .ok schema) :
    ((schema.bindingFiles.map GeneratedFile.name).Nodup ↔
      ∀ model ∈ schema.models, model.singular ≠ "mod") ∧
    (schema.bindings.map ModelBindings.moduleCode).Nodup ∧
    (schema.bindings.flatMap ModelBindings.items).Nodup ∧
    ∀ model ∈ schema.models,
      (schema.modelBindings model).structs.map BindingStruct.members =
        (model.members :: [InputKind.create, .update, .delete].map fun kind =>
          (schema.input kind model).fields.map InputField.name) ∧
      (∀ item ∈ (schema.modelBindings model).structs, item.members.Nodup ∧
        (item.identifiers.Nodup ↔ ∀ word ∈ Identifier.pathWords,
          word ∈ item.members → word ++ "_" ∉ item.members)) ∧
      (schema.modelBindings model).order.variants.map BindingVariant.rename =
        model.sortableFields ∧
      model.sortableFields.Nodup ∧
      (((schema.modelBindings model).order.variants.map BindingVariant.name).Nodup ↔
        ∀ first ∈ model.sortableFields, ∀ second ∈ model.sortableFields,
          Text.joinDigits (Text.snakeCase first).toList =
            Text.joinDigits (Text.snakeCase second).toList → first = second) := by
  have hsound := registry.sound_schema h
  have hmodels := nodup_models_of_schema h
  obtain ⟨found, hfound, hsurface, hnames⟩ := schema_eq_ok_iff.mp h
  have hfound_mem : ∀ model ∈ schema.models, model ∈ found.models.values := fun model hmodel =>
    (List.mem_filter.mp (hsurface ▸ hmodel)).1
  refine ⟨Schema.nodup_bindingFiles_iff hmodels hnames,
    Schema.nodup_moduleCodes hmodels hnames fun model hmodel => ?_,
    Schema.nodup_items hmodels hnames, fun model hmodel => ?_⟩
  · exact (methods_of_introspect hfound ((sound_introspect hfound).named.get?_eq_some.mpr
      ⟨hfound_mem model hmodel, rfl⟩)).2
  have hmodel_sound := hsound.model model hmodel
  have hdistinct := hmodel_sound.nodup_memberNames
  have hvalid : ∀ name ∈ model.memberNames, Naming.isValid name := fun name hname =>
    isValid_member hfound (hfound_mem model hmodel) (List.mem_append.mp hname)
  have hsortable := hmodel_sound.sortableFields_sublist
  refine ⟨Schema.members_modelBindings hsound hmodel, fun item hitem => ?_,
    BindingEnum.renames_ofModel model, hdistinct.sublist hsortable,
    BindingEnum.nodup_variants_iff (hdistinct.sublist hsortable) fun name hname =>
      hvalid name (hsortable.subset hname)⟩
  obtain ⟨hnamed, hmembers⟩ := Schema.struct_of_modelBindings hsound hmodel hitem
  have hdistinct_members := hdistinct.sublist hmembers
  exact ⟨hdistinct_members, hnamed.nodup_identifiers_iff hdistinct_members fun name hname =>
    hvalid name (hmembers.subset hname)⟩

/-- A registry of one model. -/
def ofModel (name : String) (fields : List FieldDef) : Registry where
  models := [{ name := name, fields := fields }]

def soleSchema (name : String) (fields : List FieldDef) : Schema :=
  (ofModel name fields).schema.toOption.getD {}

/-- A post has members that are keywords, and fields whose names differ by more than capitals. -/
def postFields : List FieldDef :=
  [{ name := "type", kind := .string }, { name := "self", kind := .json },
    { name := "seenAt", kind := .datetime }, { name := "seen2", kind := .datetime }]

theorem bindings_clash_iff_post :
    (ofModel "Post" postFields).schema = .ok (soleSchema "Post" postFields) ∧
      ((soleSchema "Post" postFields).bindingFiles.map GeneratedFile.name).Nodup ∧
      ∃ model ∈ (soleSchema "Post" postFields).models,
        (∀ item ∈ ((soleSchema "Post" postFields).modelBindings model).structs,
          item.identifiers.Nodup) ∧
        (((soleSchema "Post" postFields).modelBindings model).order.variants.map
          BindingVariant.name).Nodup := by
  have hschema : (ofModel "Post" postFields).schema = .ok (soleSchema "Post" postFields) :=
    schema_eq_ok {} (by decide +kernel)
  have hapart : ∃ model ∈ (soleSchema "Post" postFields).models,
      (∀ item ∈ ((soleSchema "Post" postFields).modelBindings model).structs,
        ∀ word ∈ Identifier.pathWords, word ∈ item.members → word ++ "_" ∉ item.members) ∧
      ∀ first ∈ model.sortableFields, ∀ second ∈ model.sortableFields,
        Text.joinDigits (Text.snakeCase first).toList =
          Text.joinDigits (Text.snakeCase second).toList → first = second := by
    decide +kernel
  obtain ⟨model, hmodel, hmembers, hsortable⟩ := hapart
  obtain ⟨hfiles, -, -, hall⟩ := bindings_clash_iff hschema
  obtain ⟨-, hstructs, -, -, horder⟩ := hall model hmodel
  exact ⟨hschema, hfiles.mpr (by decide +kernel), model, hmodel,
    fun item hitem => (hstructs item hitem).2.mpr (hmembers item hitem), horder.mpr hsortable⟩

def selfFields : List FieldDef :=
  [{ name := "self", kind := .json }, { name := "self_", kind := .json }]

def casedFields : List FieldDef :=
  [{ name := "aB", kind := .string }, { name := "a_b", kind := .string }]

/-- The file of a model is written over by the index, an underscore makes a field another one, and
camel case makes two fields the same variant. -/
theorem bindings_clash :
    ((ofModel "Mod" []).schema = .ok (soleSchema "Mod" []) ∧
      ¬ ((soleSchema "Mod" []).bindingFiles.map GeneratedFile.name).Nodup) ∧
    ((ofModel "Post" selfFields).schema = .ok (soleSchema "Post" selfFields) ∧
      ∃ bindings ∈ (soleSchema "Post" selfFields).bindings,
        ∀ item ∈ [bindings.record, bindings.create, bindings.update],
          ¬ item.identifiers.Nodup) ∧
    (ofModel "Post" casedFields).schema = .ok (soleSchema "Post" casedFields) ∧
      ∃ bindings ∈ (soleSchema "Post" casedFields).bindings,
        ¬ (bindings.order.variants.map BindingVariant.name).Nodup := by
  refine ⟨⟨schema_eq_ok {} ?_, ?_⟩, ⟨schema_eq_ok {} ?_, ?_⟩, schema_eq_ok {} ?_, ?_⟩
  all_goals decide +kernel

end Registry

end ModelSurface
