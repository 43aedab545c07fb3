import ModelSurface.Query.Arguments
import ModelSurface.Query.Page
import ModelSurface.Store.Tables
import ModelSurface.Write.Delete

/-!
Queries answered from the committed tables.
-/

namespace ModelSurface

namespace Tables

def heldIdentities (record : Record) (field : String) : List Identity :=
  match record.get? field with
  | some (.list items) => items.filterMap Identity.ofValue?
  | some value => (Identity.ofValue? value).toList
  | none => []

def related (tables : Tables) (schema : Schema) : RelatedRecords := fun model record relation =>
  match schema.descriptors.get? model with
  | none => []
  | some descriptor =>
    match descriptor.relationship? relation with
    | none => []
    | some relationship =>
      match relationship.ownership with
      | .own =>
        (heldIdentities record relationship.name).filterMap (tables.get? relationship.target)
      | .remote field =>
        match Record.identity? record descriptor.identity.name with
        | none => []
        | some id =>
          (tables.scan relationship.target).filter fun other =>
            id.toValue.refersTo (other.get? field)

end Tables

namespace Schema

/-- A model that has records, or the violation that there is none of the name. -/
def findModel (schema : Schema) (name : String) : Checked Model :=
  match schema.model? name with
  | some model => .ok model
  | none => Checked.fault "model" (.call (.unknownModel name))

end Schema

namespace Query

def single (schema : Schema) (tables : Tables) (model : String) (id : Json) :
    Checked (Option Record) := do
  let model ← schema.findModel model
  match Identity.ofJson model.identity.kind id with
  | .ok id => .ok (tables.get? model.name id)
  | .error fault => Checked.fault model.identity.name (.argument (.value fault))

def select (schema : Schema) (tables : Tables) (model : Model) (filter : Option Filter)
    (orderBy : List OrderKey) : List Record :=
  let records := tables.scan model.name
  let records :=
    match filter with
    | some filter => records.filter fun r => filter.holds (tables.related schema) model.name r
    | none => records
  Record.sort model.identity.name orderBy records

def list (schema : Schema) (tables : Tables) (model : String) (args : ListArgs) :
    Checked (List Record) := do
  let model ← schema.findModel model
  let records := (select schema tables model args.filter args.orderBy).drop args.offset
  match args.limit with
  | some limit => .ok (records.take limit)
  | none => .ok records

def pages (schema : Schema) (tables : Tables) (model : String) (args : PageArgs) :
    Checked Page := do
  let model ← schema.findModel model
  let records := select schema tables model args.filter args.orderBy
  .ok (Page.slice records args.offset (args.effectiveSize schema.options))

def resolve (schema : Schema) (tables : Tables) (model : String) (record : Record)
    (relation : String) : Checked (List Record) := do
  let found ← schema.findModel model
  match found.relationship? relation with
  | none => Checked.fault relation (.call .unknownRelationship)
  | some _ => .ok (tables.related schema model record relation)

def recordsJson (records : List Record) : Json := .arr (records.map Record.toJson)

def run (schema : Schema) (tables : Tables) (name : String) (args : Json) : Checked Json := do
  match schema.operation? name with
  | none => Checked.fault "operation" (.call (.unknownOperation name))
  | some operation =>
    let model ← schema.findModel operation.model
    match operation.kind with
    | .single =>
      let found ← single schema tables model.name (args.getD model.identity.name)
      .ok ((found.map Record.toJson).getD .null)
    | .list =>
      let args ← ListArgs.ofJson schema model args
      .ok (recordsJson (← list schema tables model.name args))
    | .pages =>
      let args ← PageArgs.ofJson schema model args
      .ok (← pages schema tables model.name args).toJson
    | _ => Checked.fault "operation" (.call (.isMutation name))

end Query

end ModelSurface
