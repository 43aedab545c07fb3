import ModelSurface.Model.Basic
import ModelSurface.Model.Issue
import ModelSurface.Registry.Definition

/-!
Documents that describe models to tools: values with their types, members, and what is wrong.
-/

namespace ModelSurface

def Json.ofOption {α : Type} (describe : α → Json) : Option α → Json
  | some a => describe a
  | none => .null

def Json.ofText? (text : Option String) : Json := Json.ofOption .str text

namespace Value

def typeName : Value → String
  | .null => "Null"
  | .bool _ => "Bool"
  | .int _ => "Int"
  | .float _ => "Float"
  | .str _ => "String"
  | .date _ => "Date"
  | .time _ => "Time"
  | .instant _ => "DateTime"
  | .decimal _ => "Decimal"
  | .uuid _ => "Uuid"
  | .duration _ => "Duration"
  | .json _ => "Json"
  | .list _ => "List"

def describe (value : Value) : Json :=
  Json.object [("type", .str value.typeName), ("json", value.toJson)]

end Value

def Computed.describe (computed : Computed) : Json :=
  Json.object [("on", .str computed.moment.name), ("value", .str computed.generator.name)]

def Field.describe (field : Field) : Json :=
  Json.object
    [("name", .str field.name), ("kind", .str field.kind.name), ("nullable", .bool field.nullable),
      ("list", .bool field.list), ("identity", .bool field.identity),
      ("help", .ofText? field.help), ("default", .ofOption Value.describe field.default),
      ("computed", .ofOption Computed.describe field.computed)]

def Cardinality.name : Cardinality → String
  | .oneToOne => "OneToOne"
  | .manyToOne => "ManyToOne"
  | .oneToMany => "OneToMany"
  | .manyToMany => "ManyToMany"

def Ownership.describe : Ownership → Json
  | .own => .str "local"
  | .remote field => Json.object [("remote", .str field)]

def Relationship.describe (relationship : Relationship) : Json :=
  Json.object
    [("name", .str relationship.name), ("target", .str relationship.target),
      ("cardinality", .str relationship.cardinality.name),
      ("ownership", relationship.ownership.describe),
      ("nullable", .bool relationship.nullable), ("on_delete", .str relationship.onDelete.name),
      ("inverse", .ofText? relationship.inverse), ("help", .ofText? relationship.help),
      ("foreign_key", .bool relationship.isForeignKey)]

def Returns.describe : Returns → Json
  | .nothing => .str "none"
  | .scalar kind => Json.object [("scalar", .str kind.name)]
  | .structured => .str "structured"

def Param.describe (param : Param) : Json :=
  Json.object
    [("name", .str param.name), ("kind", .str param.kind.name), ("list", .bool param.list),
      ("required", .bool param.required)]

def Method.describe (method : Method) : Json :=
  Json.object
    [("name", .str method.name), ("operation", .str method.operation),
      ("params", .arr (method.params.map Param.describe)),
      ("returns", method.returns.describe), ("help", .ofText? method.help)]

def Model.describe (model : Model) : Json :=
  Json.object
    [("name", .str model.name), ("singular", .str model.singular), ("plural", .str model.plural),
      ("abstract", .bool model.isAbstract), ("identity", .str model.identity.name),
      ("parent", .ofText? model.parent), ("help", .ofText? model.help),
      ("fields", .arr (model.fields.values.map Field.describe)),
      ("relationships", .arr (model.relationships.values.map Relationship.describe)),
      ("methods", .arr (model.methods.values.map Method.describe))]

namespace Issue

def name : Issue → String
  | .invalidName _ _ => "InvalidName"
  | .duplicateMember _ _ => "DuplicateMember"
  | .unknownBase _ _ => "UnknownBase"
  | .inheritanceCycle _ _ => "InheritanceCycle"
  | .invalidIdentity _ _ _ => "InvalidIdentity"
  | .invalidDefault _ _ _ => "InvalidDefault"
  | .unsupportedMethod _ _ _ => "UnsupportedMethodSignature"
  | .unknownTarget _ _ _ => "UnknownRelationTarget"
  | .reverseClash _ _ _ _ => "RelationNameClash"

def describe (issue : Issue) : Json :=
  Json.object [("kind", .str issue.name), ("message", .str issue.message)]

end Issue

end ModelSurface
