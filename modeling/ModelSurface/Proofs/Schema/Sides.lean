import ModelSurface.Model.Introspection
import ModelSurface.Proofs.Schema.Fields
import ModelSurface.Proofs.Schema.Members

/-!
# Both sides of relationships

In the models of a registry each relationship that a model holds leads to a model that has records,
and each relationship that is seen from its target belongs to one that the other model holds.
-/

namespace ModelSurface

/-- What makes the members of a model tell apart by their names, also from reserved keys, and its
fields take what they assign. -/
structure Model.Sound (model : Model) : Prop where
  identity : model.identity.IsIdentity
  plain : model.plain.NamedBy Field.name
  ordinary : ∀ field ∈ model.plain.values,
    field.identity = false ∧ field.name ≠ model.identity.name
  relationships : model.relationships.NamedBy Relationship.name
  apart : ∀ name ∈ model.relationships.keys, name ∉ model.fields.keys
  typed : ∀ field ∈ model.fields.values, field.Typed
  valid : ∀ name ∈ model.plain.keys, Naming.isValid name
  identityName : Naming.Unreserved model.identity.name
  unreserved : ∀ name ∈ model.relationships.keys, Naming.Unreserved name

namespace Introspection

/-- A relationship of a model, by both names. -/
def side? (models : Keyed Model) (model name : String) : Option Relationship :=
  (models.get? model).bind (·.relationship? name)

/-- Whether a name belongs to a model that has records. -/
def Concrete (models : Keyed Model) (name : String) : Prop :=
  ∃ model, models.get? name = some model ∧ model.isAbstract = false

structure Sound (models : Keyed Model) : Prop where
  named : models.NamedBy Model.name
  model : ∀ name model, models.get? name = some model → model.Sound
  own : ∀ name field relationship, side? models name field = some relationship →
    relationship.isOwn → Naming.isValid field ∧ relationship.cardinality ≠ .oneToMany ∧
      Concrete models relationship.target
  remote : ∀ name field relationship other, side? models name field = some relationship →
    relationship.ownership = .remote other → Concrete models relationship.target ∧
      ∃ held, side? models relationship.target other = some held ∧ held.isOwn ∧
        held.target = name ∧ held.cardinality = relationship.cardinality.flip

/-- A relation of a model that is there with its own side. -/
def Declared (models : Keyed Model) (declared : String × RelationDef) : Prop :=
  Concrete models declared.1 ∧ Naming.Unreserved (declared.2.reverseName declared.1) ∧
    ∃ held, side? models declared.1 declared.2.name = some held ∧ held.isOwn ∧
      held.target = declared.2.target ∧ held.cardinality = declared.2.kind.cardinality

/-! ### Changing relationships -/

/-- A change to a model that only puts a relationship in place. -/
theorem get?_update {models : Keyed Model} {name other : String} {change : Model → Model} :
    (update models name change).get? other =
      if other = name then (models.get? name).map change else models.get? other := by
  unfold update
  cases hfound : models.get? name with
  | none =>
      dsimp only
      split
      · rename_i heq
        rw [heq, hfound]
        rfl
      · rfl
  | some model =>
      rw [Keyed.get?_put]
      rfl

theorem named_update {models : Keyed Model} (h : models.NamedBy Model.name) {name : String}
    {change : Model → Model} (hchange : ∀ model, (change model).name = model.name) :
    (update models name change).NamedBy Model.name := by
  unfold update
  split
  · rename_i model hfound
    exact h.put ((hchange model).trans (h.get?_eq_some.mp hfound).2)
  · exact h

theorem relationship?_addRelationship (model : Model) (relationship : Relationship)
    (name : String) : (addRelationship model relationship).relationship? name =
      if name = relationship.name then some relationship else model.relationship? name :=
  Keyed.get?_put _ _ _ _

theorem relationship?_setInverse {model : Model} (h : model.Sound) (name inverse other : String) :
    (setInverse model name inverse).relationship? other =
      if other = name then
        (model.relationship? name).map fun r => { r with inverse := some inverse }
      else model.relationship? other := by
  unfold setInverse
  cases hfound : model.relationship? name with
  | none =>
      dsimp only
      split
      · rename_i heq
        rw [heq, hfound]
        rfl
      · rfl
  | some relationship =>
      have hname : relationship.name = name := (h.relationships.get?_eq_some.mp hfound).2
      change (addRelationship model _).relationship? other = _
      rw [relationship?_addRelationship]
      subst hname
      rfl

theorem isAbstract_setInverse {name inverse : String} (model : Model) :
    (setInverse model name inverse).isAbstract = model.isAbstract := by
  unfold setInverse
  split <;> rfl

theorem name_setInverse {name inverse : String} (model : Model) :
    (setInverse model name inverse).name = model.name := by
  unfold setInverse
  split <;> rfl

theorem Sound.addRelationship {model : Model} (h : model.Sound) {relationship : Relationship}
    (hnew : relationship.name ∉ model.fields.keys)
    (hunreserved : Naming.Unreserved relationship.name) :
    (Introspection.addRelationship model relationship).Sound where
  identity := h.identity
  plain := h.plain
  ordinary := h.ordinary
  relationships := h.relationships.put rfl
  apart name hname := by
    rcases Keyed.mem_keys_put.mp hname with heq | hold
    · rw [heq]
      exact hnew
    · exact h.apart name hold
  typed := h.typed
  valid := h.valid
  identityName := h.identityName
  unreserved name hname := by
    rcases Keyed.mem_keys_put.mp hname with heq | hold
    · rw [heq]
      exact hunreserved
    · exact h.unreserved name hold

theorem Sound.setInverse {model : Model} (h : model.Sound) (name inverse : String) :
    (Introspection.setInverse model name inverse).Sound := by
  unfold Introspection.setInverse
  split
  · rename_i relationship hfound
    have hkey := Keyed.isSome_get?_iff.mp (Option.isSome_of_eq_some hfound)
    have hname : relationship.name = name := (h.relationships.get?_eq_some.mp hfound).2
    exact Sound.addRelationship h (hname ▸ h.apart name hkey) (hname ▸ h.unreserved name hkey)
  · exact h

/-! ### Adding the other side of a relation -/

/-- What one step of the introspection keeps of the models: those that have records, and the
relationships, which only learn of their other sides. -/
structure Keeps (models models' : Keyed Model) : Prop where
  concrete : ∀ name, Concrete models name → Concrete models' name
  side : ∀ name field relationship, side? models name field = some relationship →
    ∃ inverse, side? models' name field = some { relationship with inverse := inverse }

theorem Keeps.refl (models : Keyed Model) : Keeps models models where
  concrete _ h := h
  side _ _ relationship h := ⟨relationship.inverse, h⟩

theorem Keeps.trans {first second third : Keyed Model} (h : Keeps first second)
    (h' : Keeps second third) : Keeps first third where
  concrete name hname := h'.concrete name (h.concrete name hname)
  side name field relationship hfound := by
    obtain ⟨_, hsecond⟩ := h.side name field relationship hfound
    obtain ⟨_, hthird⟩ := h'.side name field _ hsecond
    exact ⟨_, hthird⟩

theorem Declared.keeps {models models' : Keyed Model} (hkeeps : Keeps models models')
    {declared : String × RelationDef} (h : Declared models declared) :
    Declared models' declared := by
  obtain ⟨hconcrete, hunreserved, held, hheld, hown, htarget, hcardinality⟩ := h
  obtain ⟨inverse, hside⟩ := hkeeps.side _ _ _ hheld
  exact ⟨hkeeps.concrete _ hconcrete, hunreserved, _, hside, hown, htarget, hcardinality⟩

/-- A relationship is added to one side, and the other side learns of it. -/
theorem sound_of_added {models models' : Keyed Model} (h : Sound models)
    (hkeeps : Keeps models models') (hnamed : models'.NamedBy Model.name)
    (hmodel : ∀ name model, models'.get? name = some model → model.Sound)
    {declared : String × RelationDef} (hdeclared : Declared models declared)
    (hside : ∀ name field relationship, side? models' name field = some relationship →
      (name = declared.2.target ∧ relationship = Relationship.reverse declared.1 declared.2) ∨
      ∃ old inverse, side? models name field = some old ∧
        relationship = { old with inverse := inverse }) : Sound models' where
  named := hnamed
  model := hmodel
  own name field relationship hfound hown := by
    rcases hside name field relationship hfound with ⟨-, rfl⟩ | ⟨old, inverse, hold, rfl⟩
    · cases hown
    · obtain ⟨hvalid, hcardinality, htarget⟩ := h.own name field _ hold hown
      exact ⟨hvalid, hcardinality, hkeeps.concrete _ htarget⟩
  remote name field relationship other hfound hremote := by
    rcases hside name field relationship hfound with ⟨rfl, rfl⟩ | ⟨old, inverse, hold, rfl⟩
    · obtain ⟨hconcrete, -, held, hheld, hown, htarget, hcardinality⟩ := hdeclared.keeps hkeeps
      injection hremote with hother
      subst hother
      refine ⟨hconcrete, held, hheld, hown, htarget, ?_⟩
      rw [hcardinality]
      exact (Cardinality.flip_flip _).symm
    · obtain ⟨hconcrete, held, hheld, hown, htarget, hcardinality⟩ :=
        h.remote name field _ other hold hremote
      obtain ⟨_, hkept⟩ := hkeeps.side _ _ _ hheld
      exact ⟨hkeeps.concrete _ hconcrete, _, hkept, hown, htarget, hcardinality⟩

theorem concrete_update {models : Keyed Model} {name other : String} {change : Model → Model}
    (hchange : ∀ model, (change model).isAbstract = model.isAbstract)
    (h : Concrete models other) : Concrete (update models name change) other := by
  obtain ⟨model, hfound, hconcrete⟩ := h
  unfold Concrete
  rw [get?_update]
  split
  · rename_i heq
    rw [← heq, hfound]
    exact ⟨change model, rfl, (hchange model).trans hconcrete⟩
  · exact ⟨model, hfound, hconcrete⟩

theorem sound_get?_update {models : Keyed Model} {name : String} {change : Model → Model}
    (h : ∀ name model, models.get? name = some model → model.Sound)
    (hchange : ∀ model, models.get? name = some model → (change model).Sound) :
    ∀ other model, (update models name change).get? other = some model → model.Sound := by
  intro other model hfound
  rw [get?_update] at hfound
  split at hfound
  · obtain ⟨old, hold, rfl⟩ := Option.map_eq_some_iff.mp hfound
    exact hchange old hold
  · exact h other model hfound

theorem side?_addRelationship {models : Keyed Model} {target : String} {model : Model}
    (htarget : models.get? target = some model) (reverse : Relationship) (name field : String) :
    side? (update models target (addRelationship · reverse)) name field =
      if name = target ∧ field = reverse.name then some reverse else side? models name field := by
  unfold side?
  rw [get?_update]
  by_cases hname : name = target
  · rw [if_pos hname, hname, htarget, Option.map_some, Option.bind_some, Option.bind_some,
      relationship?_addRelationship]
    simp only [true_and]
  · rw [if_neg hname, if_neg (fun h => hname h.1)]

theorem side?_setInverse {models : Keyed Model}
    (h : ∀ name model, models.get? name = some model → model.Sound)
    (model relation inverse name field : String) :
    side? (update models model (setInverse · relation inverse)) name field =
      if name = model ∧ field = relation then
        (side? models name field).map fun r => { r with inverse := some inverse }
      else side? models name field := by
  unfold side?
  rw [get?_update]
  by_cases hname : name = model
  · rw [if_pos hname, hname]
    cases hfound : models.get? model with
    | none => simp
    | some found =>
        rw [Option.map_some, Option.bind_some, Option.bind_some,
          relationship?_setInverse (h model found hfound)]
        by_cases hfield : field = relation
        · rw [if_pos hfield, if_pos ⟨rfl, hfield⟩, hfield]
        · rw [if_neg hfield, if_neg (fun h => hfield h.2)]
  · rw [if_neg hname, if_neg (fun h => hname h.1)]

/-- The models behind a relation whose other side has a free name. -/
def withReverse (models : Keyed Model) (model : String) (relation : RelationDef) : Keyed Model :=
  let reverse := Relationship.reverse model relation
  update (update models relation.target (addRelationship · reverse)) model
    (setInverse · relation.name reverse.name)

/-- The other side of a relation is left out with an issue, or it is added. -/
theorem addReverse_cases (state : Introspection) (model : String) (relation : RelationDef) :
    (state.models.get? relation.target = none ∧ addReverse state (model, relation) = state) ∨
    (∃ target issue, state.models.get? relation.target = some target ∧
      issue = .reverseClash model relation.name target.name (relation.reverseName model) ∧
      addReverse state (model, relation) = { state with issues := state.issues ++ [issue] }) ∨
    ∃ target, state.models.get? relation.target = some target ∧
      ¬ target.hasMember (Relationship.reverse model relation).name ∧
      addReverse state (model, relation) =
        ⟨withReverse state.models model relation, state.issues⟩ := by
  unfold addReverse
  dsimp only
  cases htarget : state.models.get? relation.target with
  | none => exact .inl ⟨rfl, rfl⟩
  | some target =>
      by_cases htaken : target.hasMember (Relationship.reverse model relation).name
      · exact .inr (.inl ⟨target, _, rfl, rfl, if_pos htaken⟩)
      · exact .inr (.inr ⟨target, rfl, htaken, if_neg htaken⟩)

section Free

variable {models : Keyed Model} {model : String} {relation : RelationDef} {target : Model}
  (h : Sound models) (hdeclared : Declared models (model, relation))
  (htarget : models.get? relation.target = some target)
  (hfree : ¬ target.hasMember (Relationship.reverse model relation).name)

include hfree in
theorem not_mem_of_free :
    (Relationship.reverse model relation).name ∉ target.fields.keys ∧
      target.relationship? (Relationship.reverse model relation).name = none := by
  have hboth := not_or.mp (mt Bool.or_eq_true_iff.mpr hfree)
  exact ⟨fun hmem => hboth.1 (Keyed.isSome_get?_iff.mpr hmem),
    Option.not_isSome_iff_eq_none.mp hboth.2⟩

include h hdeclared htarget hfree

theorem sound_added : ∀ name found, (update models relation.target
    (addRelationship · (Relationship.reverse model relation))).get? name = some found →
      found.Sound :=
  sound_get?_update h.model fun found hfound => by
    rw [htarget] at hfound
    rw [← Option.some.inj hfound]
    exact Sound.addRelationship (h.model _ _ htarget) (not_mem_of_free hfree).1 hdeclared.2.1

theorem side?_withReverse (name field : String) :
    side? (withReverse models model relation) name field =
      if name = model ∧ field = relation.name then
        (side? models name field).map fun r =>
          { r with inverse := some (Relationship.reverse model relation).name }
      else if name = relation.target ∧ field = (Relationship.reverse model relation).name then
        some (Relationship.reverse model relation)
      else side? models name field := by
  unfold withReverse
  rw [side?_setInverse (sound_added h hdeclared htarget hfree), side?_addRelationship htarget]
  by_cases hdeclaring : name = model ∧ field = relation.name
  · -- the own side is there already, so it cannot be the one that is added
    have hother : ¬ (name = relation.target ∧
        field = (Relationship.reverse model relation).name) := by
      rintro ⟨hname, hfield⟩
      obtain ⟨-, -, held, hheld, -⟩ := hdeclared
      dsimp only at hheld
      rw [← hdeclaring.1, ← hdeclaring.2, hname, hfield, side?, htarget, Option.bind_some,
        (not_mem_of_free hfree).2] at hheld
      cases hheld
    rw [if_pos hdeclaring, if_pos hdeclaring, if_neg hother]
  · rw [if_neg hdeclaring, if_neg hdeclaring]

theorem keeps_withReverse : Keeps models (withReverse models model relation) where
  concrete name hconcrete :=
    concrete_update isAbstract_setInverse (concrete_update (fun _ => rfl) hconcrete)
  side name field relationship hfound := by
    rw [side?_withReverse h hdeclared htarget hfree]
    split
    · rw [hfound]
      exact ⟨_, rfl⟩
    · split
      · rename_i heq
        rw [heq.1, heq.2, side?, htarget, Option.bind_some, (not_mem_of_free hfree).2] at hfound
        cases hfound
      · exact ⟨_, hfound⟩

theorem sound_withReverse : Sound (withReverse models model relation) := by
  have hadded := sound_added h hdeclared htarget hfree
  have hnamed : (update models relation.target
      (addRelationship · (Relationship.reverse model relation))).NamedBy Model.name :=
    named_update h.named fun _ => rfl
  refine sound_of_added h (keeps_withReverse h hdeclared htarget hfree)
    (named_update hnamed name_setInverse)
    (sound_get?_update hadded fun found hfound => Sound.setInverse (hadded _ _ hfound) _ _)
    hdeclared ?_
  intro name field relationship hfound
  rw [side?_withReverse h hdeclared htarget hfree] at hfound
  split at hfound
  · obtain ⟨old, hold, rfl⟩ := Option.map_eq_some_iff.mp hfound
    exact .inr ⟨old, _, hold, rfl⟩
  · split at hfound
    · rename_i heq
      exact .inl ⟨heq.1, (Option.some.inj hfound).symm⟩
    · exact .inr ⟨relationship, _, hfound, rfl⟩

end Free

/-- Each step keeps the models sound. -/
theorem addReverse_keeps {state : Introspection} (h : Sound state.models)
    {declared : String × RelationDef} (hdeclared : Declared state.models declared) :
    Sound (addReverse state declared).models ∧
      Keeps state.models (addReverse state declared).models := by
  obtain ⟨model, relation⟩ := declared
  rcases addReverse_cases state model relation with
    ⟨-, heq⟩ | ⟨_, _, -, -, heq⟩ | ⟨target, htarget, hfree, heq⟩
  · rw [heq]
    exact ⟨h, .refl _⟩
  · rw [heq]
    exact ⟨h, .refl _⟩
  · rw [heq]
    exact ⟨sound_withReverse h hdeclared htarget hfree,
      keeps_withReverse h hdeclared htarget hfree⟩

theorem addReverses_keep {declared : List (String × RelationDef)} {state : Introspection}
    (h : Sound state.models) (hdeclared : ∀ each ∈ declared, Declared state.models each) :
    Sound (declared.foldl addReverse state).models ∧
      Keeps state.models (declared.foldl addReverse state).models := by
  induction declared generalizing state with
  | nil => exact ⟨h, .refl _⟩
  | cons first rest ih =>
      obtain ⟨hfirst, hrest⟩ := List.forall_mem_cons.mp hdeclared
      obtain ⟨hsound, hkeeps⟩ := addReverse_keeps h hfirst
      obtain ⟨hall, hothers⟩ := ih hsound fun each heach => (hrest each heach).keeps hkeeps
      exact ⟨hall, hkeeps.trans hothers⟩

end Introspection

end ModelSurface
