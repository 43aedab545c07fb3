import ModelSurface.Json.Basic
import ModelSurface.Registry.Definition

/-!
Writing registries as documents. Members that are absent are left out, all others are written,
defaults included.
-/

namespace ModelSurface

def optionalMember {α : Type} (name : String) (write : α → Json) : Option α → List (String × Json)
  | some a => [(name, write a)]
  | none => []

def Options.toJson (o : Options) : Json :=
  .object
    [("relation_filter_depth", .ofNat o.relationFilterDepth),
      ("default_page_size", .ofNat o.defaultPageSize),
      ("max_page_size", .ofNat o.maxPageSize)]

def Computed.toJson (c : Computed) : Json :=
  .object [("on", .str c.moment.name), ("value", .str c.generator.name)]

def FieldDef.toJson (f : FieldDef) : Json :=
  .object
    ([("name", .str f.name), ("kind", .str f.kind.name), ("nullable", .bool f.nullable)] ++
      optionalMember "default" id f.default ++
      optionalMember "computed" Computed.toJson f.computed ++
      [("identity", .bool f.identity), ("list", .bool f.list)] ++
      optionalMember "help" .str f.help)

def RelationDef.toJson (r : RelationDef) : Json :=
  .object
    ([("name", .str r.name), ("target", .str r.target), ("kind", .str r.kind.name),
      ("nullable", .bool r.nullable), ("on_delete", .str r.onDelete.name)] ++
      optionalMember "related_name" .str r.relatedName ++
      optionalMember "help" .str r.help)

def ParamDef.toJson (p : ParamDef) : Json :=
  .object
    ([("name", .str p.name)] ++
      optionalMember "kind" (fun kind => .str kind.name) p.kind ++
      [("list", .bool p.list), ("required", .bool p.required), ("variadic", .bool p.variadic)])

def Returns.toJson : Returns → Json
  | .nothing => .str "none"
  | .scalar kind => .object [("scalar", .str kind.name)]
  | .structured => .str "structured"

def MethodDef.toJson (m : MethodDef) : Json :=
  .object
    ([("name", .str m.name), ("exposed", .bool m.exposed)] ++
      optionalMember "operation" .str m.operation ++
      [("params", .arr (m.params.map ParamDef.toJson)), ("returns", m.returns.toJson)] ++
      optionalMember "help" .str m.help)

def ModelDef.toJson (m : ModelDef) : Json :=
  .object
    ([("name", .str m.name), ("abstract", .bool m.isAbstract), ("bases", .strings m.bases)] ++
      optionalMember "plural" .str m.plural ++
      [("fields", .arr (m.fields.map FieldDef.toJson)),
        ("relations", .arr (m.relations.map RelationDef.toJson)),
        ("methods", .arr (m.methods.map MethodDef.toJson))] ++
      optionalMember "help" .str m.help)

def Registry.toJson (r : Registry) : Json :=
  .object [("options", r.options.toJson), ("models", .arr (r.models.map ModelDef.toJson))]

def Registry.text (r : Registry) : String := r.toJson.text

end ModelSurface
