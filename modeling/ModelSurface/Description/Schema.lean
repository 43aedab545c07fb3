import ModelSurface.Description.Model
import ModelSurface.Filter.Expression
import ModelSurface.Surface.Schema

/-!
Documents that describe the parts of a schema to tools.
-/

namespace ModelSurface

def OutputSource.describe : OutputSource → Json
  | .scalar kind => Json.object [("scalar", .str kind.name)]
  | .relation target cardinality =>
    Json.object [("relation", .str target), ("cardinality", .str cardinality.name)]

def OutputField.describe (field : OutputField) : Json :=
  Json.object
    [("name", .str field.name), ("type", .str field.type.text), ("source", field.source.describe),
      ("description", .ofText? field.description)]

def Model.describeOutput (model : Model) : Json :=
  let type := OutputType.ofModel model
  Json.object
    [("name", .str type.name), ("model", .str type.model),
      ("fields", .arr (type.fields.map OutputField.describe)),
      ("description", .ofText? type.description),
      ("identity_type", .ofText? ((type.field? model.identity.name).map fun f => f.type.text))]

def InputKind.name : InputKind → String
  | .create => "Create"
  | .update => "Update"
  | .delete => "Delete"

def InputShape.describe : InputShape → Json
  | .scalar kind list => Json.object [("scalar", .str kind.name), ("list", .bool list)]
  | .relation input =>
    Json.object
      [("relation", .str input.target), ("identity", .str input.identity.name),
        ("create_input", .str (Naming.createInput input.target)), ("many", .bool input.many)]

def InputField.describe (field : InputField) : Json :=
  Json.object
    [("name", .str field.name), ("type", .str field.type.text), ("required", .bool field.required),
      ("accepts_null", .bool field.acceptsNull), ("shape", field.shape.describe),
      ("description", .ofText? field.description)]

def InputType.describe (type : InputType) : Json :=
  Json.object
    [("name", .str type.name), ("model", .str type.model), ("kind", .str type.kind.name),
      ("fields", .arr (type.fields.map InputField.describe)),
      ("required", Json.strings ((type.fields.filter (·.required)).map (·.name)))]

def FilterOp.describeAll (operators : List FilterOp) : Json :=
  Json.strings (operators.map FilterOp.name)

def FilterField.describe : FilterField → Json
  | .scalar name kind list nullable =>
    Json.object
      [("name", .str name), ("kind", .str kind.name), ("list", .bool list),
        ("nullable", .bool nullable),
        ("operators", FilterOp.describeAll (FilterOp.forField kind list nullable))]
  | .relation name target many filter =>
    Json.object
      [("name", .str name), ("target", .str target), ("many", .bool many),
        ("filter", .str filter.name)]

def FilterType.describe (type : FilterType) : Json :=
  Json.object
    [("name", .str type.name), ("model", .str type.model.name),
      ("fields", .arr (type.fields.map FilterField.describe))]

def OperatorType.describe (type : OperatorType) : Json :=
  Json.object
    [("name", .str type.name), ("kind", .str type.kind.name), ("list", .bool type.list),
      ("operators", FilterOp.describeAll type.operators)]

def OperationKind.describe : OperationKind → Json
  | .single => .str "Single"
  | .list => .str "List"
  | .pages => .str "Pages"
  | .create => .str "Create"
  | .update => .str "Update"
  | .delete => .str "Delete"
  | .bulkCreate => .str "BulkCreate"
  | .bulkUpdate => .str "BulkUpdate"
  | .bulkDelete => .str "BulkDelete"
  | .method name => Json.object [("method", .str name)]

def Operation.describe (operation : Operation) : Json :=
  Json.object
    [("name", .str operation.name), ("kind", operation.kind.describe),
      ("model", .str operation.model),
      ("arguments", .arr (operation.arguments.map fun a => Json.strings [a.name, a.type.text])),
      ("returns", .str operation.returns.text), ("description", .ofText? operation.description),
      ("query", .bool operation.kind.isQuery),
      ("input", .ofText? ((operation.argument? "input").map fun a => a.type.text))]

def Options.describe (options : Options) : Json :=
  Json.object
    [("relation_filter_depth", .ofNat options.relationFilterDepth),
      ("default_page_size", .ofNat options.defaultPageSize),
      ("max_page_size", .ofNat options.maxPageSize)]

def Model.describeOrder (model : Model) : Json :=
  Json.object
    [("name", .str (Naming.orderField model.name)), ("input", .str (Naming.orderBy model.name)),
      ("model", .str model.name), ("fields", Json.strings model.sortableFields)]

def Model.describePage (model : Model) : Json :=
  Json.object
    [("name", .str (Naming.page model.name)), ("model", .str model.name),
      ("item", .str (Naming.output model.name))]

def Schema.describe? (schema : Schema) (part : String) : Option Json :=
  let each (describe : Model → Json) : Json := .arr (schema.models.map describe)
  match part with
  | "outputs" => some (each Model.describeOutput)
  | "inputs" =>
    some (.arr (schema.models.flatMap fun model =>
      [InputKind.create, .update, .delete].map fun kind => (schema.input kind model).describe))
  | "filters" => some (.arr (schema.filterTypes.map FilterType.describe))
  | "filter_walk" =>
    some (each fun model => Json.strings ((schema.filter model).walk.map FilterType.name))
  | "operator_types" => some (.arr (schema.operatorTypes.map OperatorType.describe))
  | "orders" => some (each Model.describeOrder)
  | "pages" => some (each Model.describePage)
  | "names" =>
    some (each fun model =>
      .arr [.str model.name, Json.strings (OperationKind.common.map (·.nameFor model))])
  | "operations" => some (.arr (schema.operations.map Operation.describe))
  | "issues" => some (.arr (schema.issues.map Issue.describe))
  | "options" => some schema.options.describe
  | "models" => some (each fun model => .str model.name)
  | "descriptors" => some (Json.strings schema.descriptors.keys)
  | _ => none

/-! ### Filters as trees -/

def Operand.describe : Operand → Json
  | .value v => Json.object [("value", v.describe)]
  | .values vs => Json.object [("values", .arr (vs.map Value.describe))]
  | .range low high => Json.object [("range", .arr [low.describe, high.describe])]
  | .flag b => Json.object [("flag", .bool b)]

namespace Filter

mutual

def describe : Filter → Json
  | .leaf field op operand =>
    Json.object [("leaf", .str field), ("op", .str op.name), ("operand", operand.describe)]
  | .related relation target filter =>
    Json.object
      [("related", .str relation), ("target", .str target), ("filter", filter.describe)]
  | .all filters => Json.object [("and", .arr (describeAll filters))]
  | .any filters => Json.object [("or", .arr (describeAll filters))]
  | .not filter => Json.object [("not", filter.describe)]

def describeAll : List Filter → List Json
  | [] => []
  | filter :: filters => filter.describe :: describeAll filters

end

end Filter

end ModelSurface
