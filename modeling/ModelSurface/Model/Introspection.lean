import ModelSurface.Model.Inheritance
import ModelSurface.Model.Parts
import ModelSurface.Surface.Operation

/-!
The models of a registry. A model that cannot be built is left out with its cause; relationships
are settled among the models that remain, each with its other side.
-/

namespace ModelSurface

namespace RelationKind

def cardinality : RelationKind → Cardinality
  | .foreignKey => .manyToOne
  | .oneToOne => .oneToOne
  | .manyToMany => .manyToMany

end RelationKind

namespace Relationship

/-- A relation as the declaring model sees it, before its other side is known. -/
def own (relation : RelationDef) : Relationship where
  name := relation.name
  target := relation.target
  cardinality := relation.kind.cardinality
  ownership := .own
  nullable := relation.nullable || relation.kind == .manyToMany
  onDelete := relation.onDelete
  inverse := none
  help := relation.help

/-- A relation as its target sees it. -/
def reverse (model : String) (relation : RelationDef) : Relationship where
  name := relation.reverseName model
  target := model
  cardinality := relation.kind.cardinality.flip
  ownership := .remote relation.name
  nullable := true
  onDelete := relation.onDelete
  inverse := some relation.name
  help := none

end Relationship

/-- A model without its relationships, and the relations that it declares or inherits. -/
structure Draft where
  model : Model
  relations : List RelationDef
deriving Inhabited

namespace Draft

def ofMembers (definition : ModelDef) (members : Members) : Except Issue (Draft × List Issue) := do
  let (identity, plain) ← Field.ofDefs definition.name members.fields.values
  if members.relations.contains identity.name then
    .error (.invalidIdentity definition.name identity.name .relationship)
  else
    let (methods, issues) := Method.ofDefs definition.name identity.name members.methods.values
    let model : Model :=
      { name := definition.name
        plural :=
          match definition.plural with
          | some plural => Text.snakeCase plural
          | none => Naming.plural (Text.snakeCase definition.name)
        isAbstract := definition.isAbstract
        identity := identity
        plain := Keyed.ofList (plain.map fun field => (field.name, field))
        relationships := .empty
        methods := Keyed.ofList (methods.map fun method => (method.name, method))
        parent := definition.bases.head?
        help := definition.help }
    .ok (⟨model, members.relations.values⟩, issues)

def ofModels : List (ModelDef × Except Issue Members) → List Draft × List Issue
  | [] => ([], [])
  | (definition, members) :: models =>
    let (drafts, issues) := ofModels models
    match members with
    | .error issue => (drafts, issue :: issues)
    | .ok members =>
      match ofMembers definition members with
      | .error issue => (drafts, issue :: issues)
      | .ok (draft, own) => (draft :: drafts, own ++ issues)

/-- Whether a relation leads to a model that has records. -/
def isKnown (drafts : List Draft) (relation : RelationDef) : Bool :=
  drafts.any fun draft => draft.model.name == relation.target && !draft.model.isAbstract

def knownRelations (drafts : List Draft) (draft : Draft) : List RelationDef :=
  draft.relations.filter (isKnown drafts)

def unknownTargets (drafts : List Draft) (draft : Draft) : List Issue :=
  (draft.relations.filter fun relation => !isKnown drafts relation).map fun relation =>
    .unknownTarget draft.model.name relation.name relation.target

/-- The model with the relationships that it holds. -/
def settle (drafts : List Draft) (draft : Draft) : Model :=
  { draft.model with
    relationships := Keyed.ofList ((knownRelations drafts draft).map fun relation =>
      (relation.name, Relationship.own relation)) }

/-- The relations that have another side, each with the model that declares it. -/
def reversible (drafts : List Draft) (draft : Draft) : List (String × RelationDef) :=
  if draft.model.isAbstract then []
  else (knownRelations drafts draft).map fun relation => (draft.model.name, relation)

end Draft

structure Introspection where
  models : Keyed Model
  issues : List Issue
deriving Inhabited

namespace Introspection

def addRelationship (model : Model) (relationship : Relationship) : Model :=
  { model with relationships := model.relationships.put relationship.name relationship }

def setInverse (model : Model) (name inverse : String) : Model :=
  match model.relationship? name with
  | some relationship => addRelationship model { relationship with inverse := some inverse }
  | none => model

def update (models : Keyed Model) (name : String) (change : Model → Model) : Keyed Model :=
  match models.get? name with
  | some model => models.put name (change model)
  | none => models

/-- Adds the other side of a relation, unless its name is taken. -/
def addReverse (state : Introspection) (declared : String × RelationDef) : Introspection :=
  let (model, relation) := declared
  let reverse := Relationship.reverse model relation
  match state.models.get? relation.target with
  | none => state
  | some target =>
    if target.hasMember reverse.name then
      { state with
        issues := state.issues ++ [.reverseClash model relation.name target.name reverse.name] }
    else
      let models := update state.models relation.target (addRelationship · reverse)
      { state with models := update models model (setInverse · relation.name reverse.name) }

def ofDrafts (drafts : List Draft) (issues : List Issue) : Introspection :=
  let models := drafts.map fun draft => (draft.model.name, draft.settle drafts)
  let issues := issues ++ drafts.flatMap (Draft.unknownTargets drafts)
  (drafts.flatMap (Draft.reversible drafts)).foldl addReverse ⟨Keyed.ofList models, issues⟩

end Introspection

namespace Registry

/-- The models of a registry; two models of one name are a conflict. -/
def introspect (registry : Registry) : Except NameConflict Introspection :=
  match Naming.firstRepeated (registry.models.map (·.name)) with
  | some name => .error ⟨name, .model name, .model name⟩
  | none =>
    let (drafts, issues) := Draft.ofModels (Members.ofModels registry.models)
    .ok (Introspection.ofDrafts drafts issues)

end Registry

end ModelSurface
