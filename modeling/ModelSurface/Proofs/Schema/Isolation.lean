import ModelSurface.Proofs.Schema.Reports

/-!
# Broken models stay on their own

What a model that is left out means for the rest of a registry. Models that do not inherit from it
are built from the same declarations with it or without it, so nothing changes for them. Models that
do inherit from it have no base without it. With it they may have: a model can be left out although
its members are known, for a default or an identity that does not fit, and then a model that
inherits from it and replaces the member in fault is found.
-/

namespace ModelSurface

open Relation

namespace Introspection

theorem models_addReverse_congr {state state' : Introspection} (h : state.models = state'.models)
    (declared : String × RelationDef) :
    (addReverse state declared).models = (addReverse state' declared).models := by
  unfold addReverse
  dsimp only
  rw [h]
  split
  · exact h
  · split <;> rfl

/-- The models do not depend on what has been reported so far. -/
theorem models_ofDrafts (drafts : List Draft) (issues issues' : List Issue) :
    (ofDrafts drafts issues).models = (ofDrafts drafts issues').models := by
  rw [ofDrafts_eq, ofDrafts_eq]
  suffices hfold : ∀ (declared : List (String × RelationDef)) (state state' : Introspection),
      state.models = state'.models →
        (declared.foldl addReverse state).models = (declared.foldl addReverse state').models from
    hfold _ _ _ rfl
  intro declared
  induction declared with
  | nil => exact fun _ _ h => h
  | cons first rest ih => exact fun _ _ h => ih _ _ (models_addReverse_congr h first)

end Introspection

namespace Members

variable {known : List ModelDef}

theorem Founded.of_reaches {name base : String} (h : Founded known name)
    (hreach : ReflTransGen (Inherits known) name base) : Founded known base :=
  fun _ hrest => h _ (hreach.trans hrest)

theorem draft?_of_not_founded (hnames : (known.map (·.name)).Nodup) {model : ModelDef}
    (hmodel : model ∈ known) (h : ¬ Founded known model.name) : model.draft? known = none := by
  unfold ModelDef.draft? Draft.built?
  cases hmembers : ofSettled known (settle known .empty known) model with
  | error issue => rfl
  | ok members =>
      have hfound : (model, .ok members) ∈ ofModels known := mem_ofModels.mpr ⟨hmodel, hmembers⟩
      exact absurd ((exists_ok_iff_founded hnames hmodel).mp ⟨members, hfound⟩) h

section Added

variable {extended : List ModelDef} {broken : ModelDef}
  (hmem : ∀ model, model ∈ extended ↔ model = broken ∨ model ∈ known)
  (hfresh : ∀ model ∈ known, model.name ≠ broken.name)

include hmem hfresh

/-- The names from which nothing leads to the added model mean the same with it and without it. -/
theorem region_of_added :
    Region known extended fun name => ¬ ReflTransGen (Inherits extended) name broken.name where
  closed model hmodel hname base hbase hreach :=
    hname (.head ⟨model, (hmem model).mpr (.inr hmodel), rfl, hbase⟩ hreach)
  same model hname := by
    rw [hmem]
    refine ⟨.inr, fun h => h.resolve_left ?_⟩
    rintro rfl
    exact hname .refl

/-- A way to the added model leads through other models up to its end. -/
theorem reaches_without {name : String}
    (h : ReflTransGen (Inherits extended) name broken.name) :
    ReflTransGen (Inherits known) name broken.name := by
  induction h using ReflTransGen.head_induction_on with
  | refl => exact .refl
  | head hstep _ ih =>
      obtain ⟨model, hmodel, rfl, hbase⟩ := hstep
      rcases (hmem model).mp hmodel with rfl | hknown
      · exact .refl
      · exact .head ⟨model, hknown, rfl, hbase⟩ ih

theorem not_founded_without {name : String}
    (h : ReflTransGen (Inherits extended) name broken.name) : ¬ Founded known name := by
  intro hfounded
  obtain ⟨⟨model, hmodel, hname, -⟩, -⟩ := hfounded _ (reaches_without hmem hfresh h)
  exact hfresh model hmodel hname

theorem draft?_of_added (hnames : (known.map (·.name)).Nodup)
    (hextended : (extended.map (·.name)).Nodup) {model : ModelDef} (hmodel : model ∈ known)
    (hname : ¬ ReflTransGen (Inherits extended) model.name broken.name) :
    model.draft? extended = model.draft? known := by
  unfold ModelDef.draft?
  rw [(region_of_added hmem hfresh).ofSettled_eq (reached_full hnames) (reached_full hextended)
    (complete_full hnames _) (complete_full hextended _) hmodel hname]

end Added

end Members

namespace Registry

section Added

variable {registry extended : Registry} {before after : List ModelDef} {broken : ModelDef}
  {found' : Introspection} (hmodels : registry.models = before ++ after)
  (hadded : extended.models = before ++ broken :: after)

include hmodels hadded

theorem mem_added (model : ModelDef) :
    model ∈ extended.models ↔ model = broken ∨ model ∈ registry.models := by
  rw [hadded, hmodels]
  simp only [List.mem_append, List.mem_cons]
  tauto

theorem drafts_added (hbroken : broken.draft? extended.models = none) :
    extended.drafts = registry.models.filterMap (ModelDef.draft? extended.models) := by
  unfold drafts
  generalize ModelDef.draft? extended.models = draft at hbroken ⊢
  rw [hadded, hmodels]
  simp [hbroken]

variable (h : extended.introspect = .ok found')

include h

theorem introspect_without : ∃ found, registry.introspect = .ok found := by
  refine introspect_of_nodup ?_
  have hnames := (introspect_eq_ok h).1
  rw [hadded] at hnames
  rw [hmodels]
  exact hnames.sublist ((List.Sublist.append_left (List.sublist_cons_self _ _) _).map _)

/-- Without the added model those models are lost that inherit from it, and no others change. -/
theorem draft?_without (hfresh : ∀ model ∈ registry.models, model.name ≠ broken.name)
    {model : ModelDef} (hmodel : model ∈ registry.models) :
    (TransGen (Members.Inherits extended.models) model.name broken.name →
      model.draft? registry.models = none) ∧
    (¬ TransGen (Members.Inherits extended.models) model.name broken.name →
      model.draft? extended.models = model.draft? registry.models) := by
  obtain ⟨found, hfound⟩ := introspect_without hmodels hadded h
  have hmem := mem_added hmodels hadded
  have hnames := (introspect_eq_ok hfound).1
  refine ⟨fun hreach => ?_, fun hapart => ?_⟩
  · exact Members.draft?_of_not_founded hnames hmodel
      (Members.not_founded_without hmem hfresh hreach.to_reflTransGen)
  · refine Members.draft?_of_added hmem hfresh hnames (introspect_eq_ok h).1 hmodel fun hreach => ?_
    rcases reflTransGen_iff_eq_or_transGen.mp hreach with heq | hlonger
    · exact hfresh model hmodel heq.symm
    · exact hapart hlonger

/-- A broken model changes nothing exactly if no model is found that inherits from it. -/
theorem models_without (hfresh : ∀ model ∈ registry.models, model.name ≠ broken.name)
    (hbroken : found'.models.get? broken.name = none) {found : Introspection}
    (hfound : registry.introspect = .ok found) :
    found.models = found'.models ↔
      ∀ name, TransGen (Members.Inherits extended.models) name broken.name →
        found'.models.get? name = none := by
  have hmem := mem_added hmodels hadded
  have hdraft := fun model (hmodel : model ∈ registry.models) =>
    draft?_without hmodels hadded h hfresh hmodel
  constructor
  · intro hsame name hreach
    obtain ⟨base, ⟨model, hmodel, rfl, -⟩, -⟩ := TransGen.head'_iff.mp hreach
    rcases (hmem model).mp hmodel with rfl | hknown
    · exact hbroken
    · rw [← hsame, ← Option.not_isSome_iff_eq_none, isSome_get?_introspect hfound hknown,
        (hdraft model hknown).1 hreach]
      exact Bool.false_ne_true
  · intro hlost
    have hnone : ∀ model ∈ extended.models, found'.models.get? model.name = none →
        model.draft? extended.models = none := by
      intro model hmodel hmissing
      rw [← Option.not_isSome_iff_eq_none, ← isSome_get?_introspect h hmodel, hmissing]
      exact Bool.false_ne_true
    have hdrafts : extended.drafts = registry.drafts := by
      rw [drafts_added hmodels hadded (hnone broken ((hmem broken).mpr (.inl rfl)) hbroken)]
      refine List.filterMap_congr fun model hmodel => ?_
      by_cases hreach : TransGen (Members.Inherits extended.models) model.name broken.name
      · rw [(hdraft model hmodel).1 hreach]
        exact hnone model ((hmem model).mpr (.inr hmodel)) (hlost _ hreach)
      · exact (hdraft model hmodel).2 hreach
    obtain ⟨-, issues, rfl, -⟩ := introspect_eq_ok hfound
    obtain ⟨-, issues', rfl, -⟩ := introspect_eq_ok h
    rw [hdrafts]
    exact Introspection.models_ofDrafts _ _ _

end Added

/-- No model is found that inherits from one that has no members. -/
theorem get?_of_not_founded {registry : Registry} {found : Introspection}
    (h : registry.introspect = .ok found) {base : String}
    (hbase : ¬ Members.Founded registry.models base) {name : String}
    (hreach : TransGen (Members.Inherits registry.models) name base) :
    found.models.get? name = none := by
  obtain ⟨other, ⟨model, hmodel, rfl, -⟩, -⟩ := TransGen.head'_iff.mp hreach
  have hlost : model.draft? registry.models = none :=
    Members.draft?_of_not_founded (introspect_eq_ok h).1 hmodel fun hfounded =>
      hbase (hfounded.of_reaches hreach.to_reflTransGen)
  rw [← Option.not_isSome_iff_eq_none, isSome_get?_introspect h hmodel, hlost]
  exact Bool.false_ne_true

/-- Each model of a registry is found, or one issue leaves it out. Where it is left out, the models
that are found are the same, in the same order, as without it, exactly if none of them inherits from
it; this is so whenever it has no members. -/
theorem broken_isolated {registry : Registry} {found : Introspection}
    (h : registry.introspect = .ok found) :
    (∀ model ∈ registry.models, (found.issues.filterMap Issue.skipped?).count model.name =
      if (found.models.get? model.name).isSome then 0 else 1) ∧
    ∀ before broken after, registry.models = before ++ broken :: after →
      found.models.get? broken.name = none →
        ∃ without, Registry.introspect { registry with models := before ++ after } = .ok without ∧
          (without.models = found.models ↔
            ∀ name, TransGen (Members.Inherits registry.models) name broken.name →
              found.models.get? name = none) ∧
          (¬ Members.Founded registry.models broken.name → without.models = found.models) := by
  refine ⟨fun model hmodel => count_skipped h hmodel, fun before broken after hmodels hbroken => ?_⟩
  obtain ⟨without, hwithout⟩ :=
    @introspect_without { registry with models := before ++ after } _ _ _ _ _ rfl hmodels h
  have hfresh : ∀ model ∈ before ++ after, model.name ≠ broken.name := by
    have hnames := (introspect_eq_ok h).1
    rw [hmodels, List.map_append, List.map_cons] at hnames
    have hnew := (List.nodup_middle.mp hnames).notMem
    rw [← List.map_append] at hnew
    exact fun model hmodel heq => hnew (List.mem_map.mpr ⟨model, hmodel, heq⟩)
  have hiff := models_without rfl hmodels h hfresh hbroken hwithout
  exact ⟨without, hwithout, hiff, fun hunfounded =>
    hiff.mpr fun _ hreach => get?_of_not_founded h hunfounded hreach⟩

/-- A note, and a draft that is a page. The page between them lacks a base of its own. -/
def noteModel : ModelDef where
  name := "Note"
  fields := [{ name := "text", kind := .string }]
  relations := [{ name := "page", target := "Page", kind := .foreignKey, nullable := true }]

def draftModel : ModelDef where
  name := "Draft"
  bases := ["Page"]

def strayPage : ModelDef where
  name := "Page"
  bases := ["Missing"]

theorem broken_isolated_page : ∃ found found' : Introspection,
    Registry.introspect { models := [noteModel, draftModel] } = .ok found ∧
    Registry.introspect { models := [noteModel, strayPage, draftModel] } = .ok found' ∧
    found'.models.get? "Page" = none ∧ found.models = found'.models ∧
    found'.models.keys = ["Note"] ∧ (found'.issues.filterMap Issue.skipped?).count "Draft" = 1 := by
  let extended : Registry := { models := [noteModel, strayPage, draftModel] }
  obtain ⟨found', h⟩ : ∃ found', extended.introspect = .ok found' :=
    introspect_of_nodup (by decide)
  have hkeys : (extended.introspect.toOption.map (·.models.keys)) = some ["Note"] := by
    decide +kernel
  rw [h] at hkeys
  have hfound' : found'.models.keys = ["Note"] := Option.some.inj hkeys
  have hnone : ∀ name, name ≠ "Note" → found'.models.get? name = none := by
    intro name hname
    rw [← Option.not_isSome_iff_eq_none, Keyed.isSome_get?_iff, hfound']
    simpa using hname
  have hstray : ¬ Members.Founded extended.models "Page" := by
    intro hfounded
    obtain ⟨⟨model, hmodel, hname, -⟩, -⟩ :=
      hfounded "Missing" (.single ⟨strayPage, by simp [extended], rfl, by simp [strayPage]⟩)
    simp only [extended, List.mem_cons, List.not_mem_nil, or_false] at hmodel
    rcases hmodel with rfl | rfl | rfl <;> exact absurd hname (by decide)
  obtain ⟨haccount, hisolated⟩ := broken_isolated h
  obtain ⟨found, hfound, -, hsame⟩ :=
    hisolated [noteModel] strayPage [draftModel] rfl (hnone "Page" (by decide))
  have hdraft := haccount draftModel (by simp [extended])
  rw [show draftModel.name = "Draft" from rfl, hnone "Draft" (by decide)] at hdraft
  exact ⟨found, found', hfound, h, hnone "Page" (by decide), hsame hstray, hfound', hdraft⟩

/-- A page whose count of views cannot have its default, and a post that is a page with a count of
its own. -/
def viewsPage : ModelDef where
  name := "Page"
  fields := [{ name := "views", kind := .integer, default := some (.str "many") }]

def viewsPost : ModelDef where
  name := "Post"
  bases := ["Page"]
  fields := [{ name := "views", kind := .integer }]

theorem post_of_broken_page_found : ∃ found found' : Introspection,
    Registry.introspect { models := [viewsPost] } = .ok found ∧
    Registry.introspect { models := [viewsPage, viewsPost] } = .ok found' ∧
    found'.models.get? viewsPage.name = none ∧ found.models ≠ found'.models := by
  obtain ⟨found, hfound⟩ : ∃ found, Registry.introspect { models := [viewsPost] } = .ok found :=
    introspect_of_nodup (by decide)
  obtain ⟨found', h⟩ :
      ∃ found', Registry.introspect { models := [viewsPage, viewsPost] } = .ok found' :=
    introspect_of_nodup (by decide)
  have hkeys : ((Registry.introspect { models := [viewsPost] }).toOption.map (·.models.keys)) =
      some [] := by decide +kernel
  have hkeys' : ((Registry.introspect { models := [viewsPage, viewsPost] }).toOption.map
      (·.models.keys)) = some ["Post"] := by decide +kernel
  rw [hfound] at hkeys
  rw [h] at hkeys'
  have hnone : found.models.keys = [] := Option.some.inj hkeys
  have hpost : found'.models.keys = ["Post"] := Option.some.inj hkeys'
  refine ⟨found, found', hfound, h, ?_, fun hsame => ?_⟩
  · rw [← Option.not_isSome_iff_eq_none, Keyed.isSome_get?_iff, hpost]
    decide
  · rw [hsame, hpost] at hnone
    cases hnone

end Registry

end ModelSurface
