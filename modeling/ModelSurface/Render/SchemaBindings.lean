import ModelSurface.Render.Binding
import ModelSurface.Surface.Schema

/-!
The bindings of a schema: for every model one module with its record, its three inputs and the
fields it is sorted by, and an index of the modules.
-/

namespace ModelSurface

namespace Kind

/-- The type that holds values of a kind; durations are held in seconds. -/
def bindingPath : Kind → String
  | .string => "String"
  | .integer => "i64"
  | .float => "f64"
  | .boolean => "bool"
  | .date => "chrono::NaiveDate"
  | .time => "chrono::NaiveTime"
  | .datetime => "chrono::DateTime<chrono::Utc>"
  | .decimal => "rust_decimal::Decimal"
  | .uuid => "uuid::Uuid"
  | .duration => "f64"
  | .json => "serde_json::Value"

end Kind

namespace BindingType

def scalar (kind : Kind) : BindingType := .named kind.bindingPath

def listIf (several : Bool) (type : BindingType) : BindingType :=
  if several then .list type else type

def optionalIf (nullable : Bool) (type : BindingType) : BindingType :=
  if nullable then .optional type else type

/-- The type of what an input holds, without regard to whether it is required. -/
def ofShape : InputShape → BindingType
  | .scalar kind several => listIf several (scalar kind)
  | .relation relation => listIf relation.many (scalar .json)

end BindingType

namespace BindingField

def ofField (field : Field) : BindingField :=
  ofName field.name
    (.optionalIf field.nullable (.listIf field.list (.scalar field.kind))) field.help

/-- The reference that a record holds, given the kind of identities it refers to. -/
def ofRelationship (relationship : Relationship) (identity : Kind) : BindingField :=
  let type := BindingType.scalar identity
  ofName relationship.name
    (if relationship.isMany then .list type else .optionalIf relationship.nullable type)

/-- A field of an input. An update tells a field that is left out from one that is null. -/
def ofInput (kind : InputKind) (field : InputField) : BindingField :=
  let type := BindingType.ofShape field.shape
  if field.required then ofName field.name type field.description
  else
    let twice := kind == .update && field.acceptsNull
    ofName field.name (.optional (.optionalIf twice type)) field.description true

end BindingField

namespace BindingStruct

def ofModel (target? : String → Option Model) (model : Model) : BindingStruct where
  name := Naming.output model.name
  traits := ["Debug", "Clone", "PartialEq", "Serialize", "Deserialize"]
  fields :=
    model.fields.values.map BindingField.ofField ++
      (model.relationships.values.filter Relationship.isOwn).filterMap fun relationship =>
        (target? relationship.target).map fun target =>
          BindingField.ofRelationship relationship target.identity.kind
  doc := model.help

def ofInput (type : InputType) : BindingStruct where
  name := type.name
  traits := ["Debug", "Clone", "Default", "PartialEq", "Serialize", "Deserialize"]
  fields := type.fields.map (BindingField.ofInput type.kind)

end BindingStruct

/-- The fields by which records of a model are sorted. -/
def BindingEnum.ofModel (model : Model) : BindingEnum where
  name := Naming.orderField model.name
  traits := ["Debug", "Clone", "Copy", "PartialEq", "Eq", "Serialize", "Deserialize"]
  variants := model.sortableFields.map fun field => ⟨Text.capitalCase field, field⟩
  doc := some " Sortable fields"

structure ModelBindings where
  moduleName : String
  record : BindingStruct
  create : BindingStruct
  update : BindingStruct
  delete : BindingStruct
  order : BindingEnum
deriving DecidableEq, Repr, Inhabited

namespace ModelBindings

def structs (bindings : ModelBindings) : List BindingStruct :=
  [bindings.record, bindings.create, bindings.update, bindings.delete]

def head : List String :=
  ["//! Bindings for one model", "//! @generated", "#![allow(missing_docs)]",
    "#![allow(unused_imports)]", "use serde::\x7bDeserialize, Serialize\x7d;"]

def file (bindings : ModelBindings) : GeneratedFile where
  name := bindings.moduleName ++ ".rs"
  content :=
    textOfLines (head ++ bindings.structs.flatMap BindingStruct.lines ++ bindings.order.lines)

def indexLines (bindings : ModelBindings) : List String :=
  let code := (Identifier.ofName bindings.moduleName).code
  [s!"pub mod {code};", s!"pub use {code}::*;"]

def index (bindings : List ModelBindings) : GeneratedFile where
  name := "mod.rs"
  content :=
    textOfLines
      (["//! Generated model bindings", "//! @generated"] ++ bindings.flatMap indexLines)

end ModelBindings

namespace Schema

def modelBindings (schema : Schema) (model : Model) : ModelBindings where
  moduleName := model.singular
  record := .ofModel schema.model? model
  create := .ofInput (schema.input .create model)
  update := .ofInput (schema.input .update model)
  delete := .ofInput (schema.input .delete model)
  order := .ofModel model

def bindings (schema : Schema) : List ModelBindings := schema.models.map schema.modelBindings

def bindingFiles (schema : Schema) : List GeneratedFile :=
  schema.bindings.map ModelBindings.file ++ [ModelBindings.index schema.bindings]

end Schema

end ModelSurface
