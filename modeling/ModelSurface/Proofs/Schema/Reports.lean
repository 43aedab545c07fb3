import ModelSurface.Proofs.Schema.Inheritance
import ModelSurface.Proofs.Schema.Sound

/-!
# Models that are left out

Every model of a registry comes to one of two ends. Either it is among the models that are found, or
one issue says that it is left out. Other issues leave out less than a model: a method, a
relationship, or the other side of one.
-/

namespace ModelSurface

/-- The model that is left out for an issue, if one is. -/
def Issue.skipped? : Issue → Option String
  | .invalidName model _ | .duplicateMember model _ | .unknownBase model _
  | .inheritanceCycle model _ | .invalidIdentity model _ _ | .invalidDefault model _ _ => some model
  | .unsupportedMethod .. | .unknownTarget .. | .reverseClash .. => none

/-- The relation whose other side is left out for an issue, after the model that has it. -/
def Issue.clash? : Issue → Option (String × String)
  | .reverseClash model relation _ _ => some (model, relation)
  | _ => none

theorem Issue.clash?_eq_none_of_skipped? {issue : Issue} {model : String}
    (h : issue.skipped? = some model) : issue.clash? = none := by
  cases issue <;> first | rfl | cases h

/-! ### Issues of one model -/

theorem ModelDef.skipped?_ownIssue? {model : ModelDef} {issue : Issue}
    (h : model.ownIssue? = some issue) : issue.skipped? = some model.name := by
  obtain ⟨name, rfl | rfl⟩ := ownIssue?_cases h <;> rfl

namespace Members

variable {known : List ModelDef} {settled : Settled} {model : ModelDef} {issue : Issue}

theorem skipped?_ofSettled (h : ofSettled known settled model = .error issue) :
    issue.skipped? = some model.name := by
  unfold ofSettled Standing.ofModel at h
  cases hown : model.ownIssue? with
  | some own =>
      rw [hown] at h
      cases h
      exact ModelDef.skipped?_ownIssue? hown
  | none =>
      rw [hown] at h
      dsimp only at h
      split at h
      · rename_i hbases
        subst h
        obtain ⟨base, rfl⟩ := ofBases_error hbases
        rfl
      · cases h
        rfl

end Members

namespace Field

theorem exists_of_mapM_error {α β ε : Type} {f : α → Except ε β} {items : List α} {failure : ε}
    (h : items.mapM f = .error failure) : ∃ item ∈ items, f item = .error failure := by
  induction items with
  | nil => cases h
  | cons item items ih =>
      rw [List.mapM_cons] at h
      rcases except_bind_eq_error.mp h with hitem | ⟨first, -, h⟩
      · exact ⟨item, List.mem_cons_self, hitem⟩
      · rcases except_bind_eq_error.mp h with hitems | ⟨rest, -, h⟩
        · obtain ⟨other, hother, herror⟩ := ih hitems
          exact ⟨other, List.mem_cons_of_mem _ hother, herror⟩
        · cases h

variable {model : String} {definition : FieldDef} {issue : Issue}

theorem skipped?_ofPlain (h : ofPlain model definition = .error issue) :
    issue.skipped? = some model := by
  unfold ofPlain at h
  dsimp only at h
  split at h
  · cases h
    rfl
  · split at h
    · cases h
      rfl
    · cases h

theorem skipped?_ofIdentity (h : ofIdentity model definition = .error issue) :
    issue.skipped? = some model := by
  unfold ofIdentity at h
  dsimp only at h
  split at h
  · cases h
    rfl
  · split at h
    · cases h
      rfl
    · split at h
      · cases h
        rfl
      · cases h

theorem skipped?_mapM_ofPlain {definitions : List FieldDef}
    (h : definitions.mapM (ofPlain model) = .error issue) : issue.skipped? = some model := by
  obtain ⟨definition, -, herror⟩ := exists_of_mapM_error h
  exact skipped?_ofPlain herror

theorem skipped?_ofDefs {definitions : List FieldDef}
    (h : ofDefs model definitions = .error issue) : issue.skipped? = some model := by
  unfold ofDefs at h
  split at h
  · split at h
    · cases h
      rfl
    · rcases except_bind_eq_error.mp h with hplain | ⟨_, -, h⟩
      · exact skipped?_mapM_ofPlain hplain
      · cases h
  · split at h
    · cases h
      rfl
    · rcases except_bind_eq_error.mp h with hfront | ⟨_, -, h⟩
      · exact skipped?_mapM_ofPlain hfront
      rcases except_bind_eq_error.mp h with hidentity | ⟨_, -, h⟩
      · exact skipped?_ofIdentity hidentity
      rcases except_bind_eq_error.mp h with hbehind | ⟨_, -, h⟩
      · exact skipped?_mapM_ofPlain hbehind
      · cases h

end Field

theorem Method.unsupported_ofDefs {model identity : String} {definitions : List MethodDef}
    {issue : Issue} (h : issue ∈ (Method.ofDefs model identity definitions).2) :
    ∃ method fault, issue = .unsupportedMethod model method fault := by
  induction definitions with
  | nil => cases h
  | cons definition definitions ih =>
      unfold Method.ofDefs at h
      dsimp only at h
      split at h
      · exact ih h
      · split at h
        · exact ih h
        · rcases List.mem_cons.mp h with rfl | hrest
          · exact ⟨_, _, rfl⟩
          · exact ih hrest

/-! ### Drafts -/

namespace Draft

/-- The draft of a model, given its members. -/
def built? (model : ModelDef) (members : Except Issue Members) : Option Draft :=
  (members.bind (ofMembers model)).toOption.map (·.1)

/-- A draft leaves out methods at most; without one the model is left out. -/
theorem ofMembers_cases (model : ModelDef) (members : Members) :
    (∃ draft issues, ofMembers model members = .ok (draft, issues) ∧
      draft.model.name = model.name ∧
      ∀ issue ∈ issues, ∃ method fault, issue = .unsupportedMethod model.name method fault) ∨
    ∃ issue, ofMembers model members = .error issue ∧ issue.skipped? = some model.name := by
  unfold ofMembers
  cases hfields : Field.ofDefs model.name members.fields.values with
  | error issue => exact .inr ⟨issue, rfl, Field.skipped?_ofDefs hfields⟩
  | ok fields =>
      by_cases hshared : members.relations.contains fields.1.name
      · exact .inr ⟨_, if_pos hshared, rfl⟩
      · exact .inl ⟨_, _, if_neg hshared, rfl, fun issue => Method.unsupported_ofDefs⟩

variable {model : ModelDef} {members : Except Issue Members}
  (hmembers : ∀ issue, members = .error issue → issue.skipped? = some model.name)

include hmembers

theorem ofModels_cons (models : List (ModelDef × Except Issue Members)) :
    (∃ draft issues, built? model members = some draft ∧ draft.model.name = model.name ∧
      (∀ issue ∈ issues, ∃ method fault, issue = .unsupportedMethod model.name method fault) ∧
      ofModels ((model, members) :: models) =
        (draft :: (ofModels models).1, issues ++ (ofModels models).2)) ∨
    ∃ issue, built? model members = none ∧ issue.skipped? = some model.name ∧
      ofModels ((model, members) :: models) =
        ((ofModels models).1, issue :: (ofModels models).2) := by
  cases members with
  | error issue => exact .inr ⟨issue, rfl, hmembers issue rfl, rfl⟩
  | ok members =>
      rcases ofMembers_cases model members with
        ⟨draft, issues, hdraft, hname, hissues⟩ | ⟨issue, herror, hissue⟩
      · refine .inl ⟨draft, issues, ?_, hname, hissues, ?_⟩
        · simp [built?, Except.bind, Except.toOption, hdraft]
        · simp [ofModels, hdraft]
      · refine .inr ⟨issue, ?_, hissue, ?_⟩
        · simp [built?, Except.bind, Except.toOption, herror]
        · simp [ofModels, herror]

theorem name_of_built? {draft : Draft} (h : built? model members = some draft) :
    draft.model.name = model.name := by
  rcases ofModels_cons hmembers [] with ⟨found, -, hfound, hname, -⟩ | ⟨-, hnone, -⟩
  · rwa [← Option.some.inj (hfound.symm.trans h)]
  · rw [hnone] at h
    cases h

end Draft

namespace ModelDef

/-- What becomes of a model among others. -/
def draft? (known : List ModelDef) (model : ModelDef) : Option Draft :=
  Draft.built? model (Members.ofSettled known (Members.settle known .empty known) model)

theorem name_of_draft? {known : List ModelDef} {model : ModelDef} {draft : Draft}
    (h : model.draft? known = some draft) : draft.model.name = model.name :=
  Draft.name_of_built? (fun _ => Members.skipped?_ofSettled) h

end ModelDef

/-- The drafts of all models, and what the issues that come with them leave out. -/
theorem Draft.ofModels_ofModels (known : List ModelDef) :
    (Draft.ofModels (Members.ofModels known)).1 = known.filterMap (ModelDef.draft? known) ∧
      (Draft.ofModels (Members.ofModels known)).2.filterMap Issue.skipped? =
        (known.filter fun model => (model.draft? known).isNone).map (·.name) ∧
      (Draft.ofModels (Members.ofModels known)).2.filterMap Issue.clash? = [] := by
  unfold Members.ofModels
  dsimp only
  generalize hresult : (fun model => (model,
    Members.ofSettled known (Members.settle known .empty known) model)) = result
  suffices hpart : ∀ models : List ModelDef,
      (Draft.ofModels (models.map result)).1 = models.filterMap (ModelDef.draft? known) ∧
      (Draft.ofModels (models.map result)).2.filterMap Issue.skipped? =
        (models.filter fun model => (model.draft? known).isNone).map (·.name) ∧
      (Draft.ofModels (models.map result)).2.filterMap Issue.clash? = [] from hpart known
  subst hresult
  intro models
  induction models with
  | nil => exact ⟨rfl, rfl, rfl⟩
  | cons model models ih =>
      obtain ⟨hdrafts, hissues, hclashes⟩ := ih
      rw [List.map_cons]
      have hskipped : ∀ issue, Members.ofSettled known (Members.settle known .empty known) model =
          .error issue → issue.skipped? = some model.name := fun _ => Members.skipped?_ofSettled
      rcases Draft.ofModels_cons hskipped _ with
        ⟨draft, own, hdraft, -, hown, heq⟩ | ⟨issue, hdraft, hissue, heq⟩
      · have hnone : own.filterMap Issue.skipped? = [] :=
          List.filterMap_eq_nil_iff.mpr fun issue hissue => by
            obtain ⟨_, _, rfl⟩ := hown issue hissue
            rfl
        have hclashed : own.filterMap Issue.clash? = [] :=
          List.filterMap_eq_nil_iff.mpr fun issue hissue => by
            obtain ⟨_, _, rfl⟩ := hown issue hissue
            rfl
        have hsome : model.draft? known = some draft := hdraft
        rw [heq]
        simp [hsome, hdrafts, hissues, hclashes, hnone, hclashed]
      · have hnone : model.draft? known = none := hdraft
        rw [heq]
        simp [hnone, hdrafts, hissues, hclashes, hissue, Issue.clash?_eq_none_of_skipped? hissue]

/-! ### Introspection -/

namespace Introspection

theorem keys_update (models : Keyed Model) (name : String) (change : Model → Model) :
    (update models name change).keys = models.keys := by
  unfold update
  split
  · rename_i model hfound
    exact Keyed.keys_put_of_mem _ (Keyed.isSome_get?_iff.mp (Option.isSome_of_eq_some hfound))
  · rfl

/-- Adding other sides adds no model, and leaves out none. -/
theorem addReverse_frame (state : Introspection) (declared : String × RelationDef) :
    (addReverse state declared).models.keys = state.models.keys ∧
      (addReverse state declared).issues.filterMap Issue.skipped? =
        state.issues.filterMap Issue.skipped? := by
  obtain ⟨model, relation⟩ := declared
  rcases addReverse_cases state model relation with
    ⟨-, heq⟩ | ⟨_, _, -, rfl, heq⟩ | ⟨target, -, -, heq⟩
  · rw [heq]
    exact ⟨rfl, rfl⟩
  · rw [heq]
    exact ⟨rfl, by simp [Issue.skipped?]⟩
  · rw [heq, withReverse]
    exact ⟨by rw [keys_update, keys_update], rfl⟩

theorem foldl_addReverse_frame (declared : List (String × RelationDef)) (state : Introspection) :
    (declared.foldl addReverse state).models.keys = state.models.keys ∧
      (declared.foldl addReverse state).issues.filterMap Issue.skipped? =
        state.issues.filterMap Issue.skipped? := by
  induction declared generalizing state with
  | nil => exact ⟨rfl, rfl⟩
  | cons first rest ih =>
      obtain ⟨hkeys, hissues⟩ := ih (addReverse state first)
      obtain ⟨hfirst_keys, hfirst_issues⟩ := addReverse_frame state first
      exact ⟨hkeys.trans hfirst_keys, hissues.trans hfirst_issues⟩

/-- The models before any other side is added, with the issues up to there. -/
def outset (drafts : List Draft) (issues : List Issue) : Introspection :=
  ⟨settled drafts, issues ++ drafts.flatMap (Draft.unknownTargets drafts)⟩

theorem ofDrafts_eq (drafts : List Draft) (issues : List Issue) : ofDrafts drafts issues =
    (drafts.flatMap (Draft.reversible drafts)).foldl addReverse (outset drafts issues) := rfl

theorem keys_ofDrafts {drafts : List Draft} (hnames : (drafts.map (·.model.name)).Nodup)
    (issues : List Issue) :
    (ofDrafts drafts issues).models.keys = drafts.map (·.model.name) := by
  rw [ofDrafts_eq, (foldl_addReverse_frame _ _).1]
  unfold outset settled Keyed.keys
  rw [Keyed.entries_ofList] <;> rw [List.map_map]
  · rfl
  · exact hnames

theorem skipped_ofDrafts (drafts : List Draft) (issues : List Issue) :
    (ofDrafts drafts issues).issues.filterMap Issue.skipped? =
      issues.filterMap Issue.skipped? := by
  have hunknown : (drafts.flatMap (Draft.unknownTargets drafts)).filterMap Issue.skipped? = [] := by
    refine List.filterMap_eq_nil_iff.mpr fun issue hissue => ?_
    obtain ⟨draft, -, hmem⟩ := List.mem_flatMap.mp hissue
    obtain ⟨relation, -, rfl⟩ := List.mem_map.mp hmem
    rfl
  rw [ofDrafts_eq, (foldl_addReverse_frame _ _).2, outset, List.filterMap_append, hunknown,
    List.append_nil]

end Introspection

namespace Registry

variable {registry : Registry} {found : Introspection}

/-- The models of a registry that can be built, without relationships. -/
def drafts (registry : Registry) : List Draft :=
  registry.models.filterMap (ModelDef.draft? registry.models)

theorem names_drafts (registry : Registry) : registry.drafts.map (·.model.name) =
    (registry.models.filter fun model => (model.draft? registry.models).isSome).map (·.name) := by
  unfold drafts
  suffices hpart : ∀ models : List ModelDef,
      (models.filterMap (ModelDef.draft? registry.models)).map (·.model.name) =
        (models.filter fun model => (model.draft? registry.models).isSome).map (·.name) from
    hpart registry.models
  intro models
  induction models with
  | nil => rfl
  | cons model models ih =>
      cases hdraft : model.draft? registry.models with
      | none => simpa [hdraft] using ih
      | some draft => simpa [hdraft, ModelDef.name_of_draft? hdraft] using ih

theorem introspect_eq_ok (h : registry.introspect = .ok found) :
    (registry.models.map (·.name)).Nodup ∧ ∃ issues,
      found = Introspection.ofDrafts registry.drafts issues ∧
      issues.filterMap Issue.skipped? =
        (registry.models.filter fun model =>
          (model.draft? registry.models).isNone).map (·.name) ∧
      issues.filterMap Issue.clash? = [] := by
  unfold introspect at h
  obtain ⟨hdrafts, hissues⟩ := Draft.ofModels_ofModels registry.models
  split at h
  · cases h
  · rename_i hnames
    refine ⟨Naming.firstRepeated_eq_none_iff.mp hnames, _, ?_, hissues⟩
    rw [← Except.ok.inj h, drafts, ← hdrafts]

theorem introspect_of_nodup (hnames : (registry.models.map (·.name)).Nodup) :
    ∃ found, registry.introspect = .ok found := by
  unfold introspect
  rw [Naming.firstRepeated_eq_none_iff.mpr hnames]
  exact ⟨_, rfl⟩

theorem sound_drafts (registry : Registry) : ∀ draft ∈ registry.drafts, draft.Sound := by
  unfold drafts
  rw [← (Draft.ofModels_ofModels registry.models).1]
  exact (Draft.ofModels_sound fun _ _ hmem => Members.sound_of_ofModels hmem).1

theorem nodup_drafts (hnames : (registry.models.map (·.name)).Nodup) :
    (registry.drafts.map (·.model.name)).Nodup := by
  rw [names_drafts]
  exact hnames.sublist (List.filter_sublist.map _)

/-- The models that are found are those with a draft, in the order of their registration. -/
theorem keys_introspect (h : registry.introspect = .ok found) : found.models.keys =
    (registry.models.filter fun model => (model.draft? registry.models).isSome).map (·.name) := by
  obtain ⟨hnames, issues, rfl, -⟩ := introspect_eq_ok h
  rw [Introspection.keys_ofDrafts (nodup_drafts hnames), names_drafts]

theorem isSome_get?_introspect (h : registry.introspect = .ok found) {model : ModelDef}
    (hmodel : model ∈ registry.models) :
    (found.models.get? model.name).isSome = (model.draft? registry.models).isSome := by
  obtain ⟨hnames, -⟩ := introspect_eq_ok h
  rw [Bool.eq_iff_iff, Keyed.isSome_get?_iff, keys_introspect h]
  constructor
  · intro hkey
    obtain ⟨other, hother, hsame⟩ := List.mem_map.mp hkey
    obtain ⟨hmem, hdraft⟩ := List.mem_filter.mp hother
    rwa [List.inj_on_of_nodup_map hnames hmem hmodel hsame] at hdraft
  · exact fun hdraft => List.mem_map.mpr ⟨model, List.mem_filter.mpr ⟨hmodel, hdraft⟩, rfl⟩

/-- Each model of a registry is found, or else one issue leaves it out. -/
theorem count_skipped (h : registry.introspect = .ok found) {model : ModelDef}
    (hmodel : model ∈ registry.models) :
    (found.issues.filterMap Issue.skipped?).count model.name =
      if (found.models.get? model.name).isSome then 0 else 1 := by
  rw [isSome_get?_introspect h hmodel]
  obtain ⟨hnames, issues, rfl, hissues, -⟩ := introspect_eq_ok h
  rw [Introspection.skipped_ofDrafts, hissues]
  have hdistinct : ((registry.models.filter fun model =>
      (model.draft? registry.models).isNone).map (·.name)).Nodup :=
    hnames.sublist (List.filter_sublist.map _)
  cases hdraft : model.draft? registry.models with
  | none =>
      refine List.count_eq_one_of_mem hdistinct (List.mem_map.mpr ⟨model, ?_, rfl⟩)
      simp [hmodel, hdraft]
  | some draft =>
      refine List.count_eq_zero.mpr fun hmem => ?_
      obtain ⟨other, hother, hsame⟩ := List.mem_map.mp hmem
      obtain ⟨hother_mem, hnone⟩ := List.mem_filter.mp hother
      rw [List.inj_on_of_nodup_map hnames hother_mem hmodel hsame, hdraft] at hnone
      cases hnone

end Registry

end ModelSurface
