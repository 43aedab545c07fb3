import ModelSurface.Filter.Type
import ModelSurface.Model.Introspection
import ModelSurface.Surface.Operation
import ModelSurface.Surface.Types

/-!
Schemas: the models of a registry together with all that is generated for them. The types and
operations are functions of the models; a schema exists only if no two of their names clash.
-/

namespace ModelSurface

def Model.sortableFields (model : Model) : List String :=
  (model.fields.values.filter fun field => !field.list && field.kind.isSortable).map (·.name)

structure Schema where
  options : Options := {}
  /-- Every model that could be built, abstract ones among them. -/
  descriptors : Keyed Model := .empty
  issues : List Issue := []
deriving Inhabited

namespace Schema

/-- A model that has records. -/
def model? (schema : Schema) (name : String) : Option Model :=
  (schema.descriptors.get? name).filter fun model => !model.isAbstract

/-- The models that have records, in the order of their registration. -/
def models (schema : Schema) : List Model :=
  schema.descriptors.values.filter fun model => !model.isAbstract

def input (schema : Schema) (kind : InputKind) (model : Model) : InputType :=
  .ofModel schema.model? kind model

def filter (schema : Schema) (model : Model) : FilterType :=
  .ofModel schema.model? schema.options.relationFilterDepth model

def operations (schema : Schema) : List Operation := schema.models.flatMap Operation.ofModel

def operation? (schema : Schema) (name : String) : Option Operation :=
  schema.operations.find? fun operation => operation.name == name

def queries (schema : Schema) : List Operation :=
  schema.operations.filter fun operation => operation.kind.isQuery

def mutations (schema : Schema) : List Operation :=
  schema.operations.filter fun operation => !operation.kind.isQuery

/-- The entries of a list whose names are new, the first of each name. -/
def firstOfEach {α : Type} (name : α → String) (items : List α) : List α :=
  (items.foldl (fun (kept : Keyed α) item =>
    if kept.contains (name item) then kept else kept.put (name item) item) .empty).values

/-- Every filter type once, in the order in which the filters of the models lead to them. -/
def filterTypes (schema : Schema) : List FilterType :=
  firstOfEach FilterType.name (schema.models.flatMap fun model => (schema.filter model).walk)

/-- Every operator type once, in the order in which the filters use them. -/
def operatorTypes (schema : Schema) : List OperatorType :=
  firstOfEach OperatorType.name (schema.models.flatMap fun model =>
    (schema.filter model).walk.flatMap fun filter =>
      filter.fields.filterMap OperatorType.ofField?)

/-! ### Names -/

def filterClaims (filter : FilterType) : List NameClaim :=
  ⟨filter.name, .filter filter.model.name⟩ ::
    (filter.fields.filterMap OperatorType.ofField?).map fun type => ⟨type.name, .builtIn⟩

def modelClaims (schema : Schema) (model : Model) : List NameClaim :=
  [⟨Naming.output model.name, .output model.name⟩,
    ⟨Naming.createInput model.name, .input model.name⟩,
    ⟨Naming.updateInput model.name, .input model.name⟩,
    ⟨Naming.deleteInput model.name, .input model.name⟩,
    ⟨Naming.reference model.name, .reference model.name⟩] ++
  (schema.filter model).walk.flatMap filterClaims ++
  [⟨Naming.orderField model.name, .ordering model.name⟩,
    ⟨Naming.orderBy model.name, .ordering model.name⟩,
    ⟨Naming.page model.name, .page model.name⟩] ++
  (Operation.ofModel model).map fun operation =>
    ⟨operation.name, .operation model.name operation.kind⟩

def claims (schema : Schema) : List NameClaim :=
  BuiltIn.all.map (⟨·, .builtIn⟩) ++ schema.models.flatMap schema.modelClaims

end Schema

namespace Registry

/-- The schema of a registry. What is wrong with single models is noted in it; only names that
clash leave no schema at all. -/
def schema (registry : Registry) : Except NameConflict Schema := do
  let found ← registry.introspect
  let schema : Schema := ⟨registry.options, found.models, found.issues⟩
  match NameClaim.conflict? schema.claims with
  | some conflict => .error conflict
  | none => .ok schema

end Registry

end ModelSurface
