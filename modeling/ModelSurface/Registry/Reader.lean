import ModelSurface.Json.Decode
import ModelSurface.Registry.Definition

/-!
Reading registries from documents.
-/

namespace ModelSurface

open Json

def Kind.decode : Document → Decoded Kind :=
  (Choice.plain Kind.documentNames Kind.ofName?).decode

def Moment.decode : Document → Decoded Moment :=
  (Choice.plain (Moment.all.map Moment.name) Moment.ofName?).decode

def Generator.decode : Document → Decoded Generator :=
  (Choice.plain (Generator.all.map Generator.name) Generator.ofName?).decode

def RelationKind.decode : Document → Decoded RelationKind :=
  (Choice.plain (RelationKind.all.map RelationKind.name) RelationKind.ofName?).decode

def DeletePolicy.decode : Document → Decoded DeletePolicy :=
  (Choice.plain (DeletePolicy.all.map DeletePolicy.name) DeletePolicy.ofName?).decode

def Returns.decode : Document → Decoded Returns :=
  Choice.decode
    { known := ["none", "scalar", "structured"]
      ofName? := fun name =>
        if name = "none" then some (.inl .nothing)
        else if name = "structured" then some (.inl .structured)
        else if name = "scalar" then
          some (.inr fun document => (Kind.decode document).map .scalar)
        else none }

def Options.shape : Shape Options :=
  { name := "SchemaOptions"
    fields :=
      [{ name := "relation_filter_depth", required := false
         read := fun o d => do .ok { o with relationFilterDepth := ← d.natural } },
        { name := "default_page_size", required := false
          read := fun o d => do .ok { o with defaultPageSize := ← d.natural } },
        { name := "max_page_size", required := false
          read := fun o d => do .ok { o with maxPageSize := ← d.natural } }]
    default := {} }

def Computed.shape : Shape Computed :=
  { name := "ComputedDefinition"
    fields :=
      [{ name := "on", required := false
         read := fun c d => do .ok { c with moment := ← Moment.decode d } },
        { name := "value", required := true
          read := fun c d => do .ok { c with generator := ← Generator.decode d } }]
    default := { moment := .create, generator := .now } }

def FieldDef.shape : Shape FieldDef :=
  { name := "FieldDefinition"
    fields :=
      [{ name := "name", required := true
         read := fun f d => do .ok { f with name := ← d.string } },
        { name := "kind", required := true
          read := fun f d => do .ok { f with kind := ← Kind.decode d } },
        { name := "nullable", required := false
          read := fun f d => do .ok { f with nullable := ← d.boolean } },
        { name := "default", required := false
          read := fun f d => do .ok { f with default := ← d.jsonOrNull } },
        { name := "computed", required := false
          read := fun f d => do .ok { f with computed := ← d.nullable Computed.shape.decode } },
        { name := "identity", required := false
          read := fun f d => do .ok { f with identity := ← d.boolean } },
        { name := "list", required := false
          read := fun f d => do .ok { f with list := ← d.boolean } },
        { name := "help", required := false
          read := fun f d => do .ok { f with help := ← d.nullable Document.string } }]
    default := { name := "", kind := .string } }

def RelationDef.shape : Shape RelationDef :=
  { name := "RelationDefinition"
    fields :=
      [{ name := "name", required := true
         read := fun r d => do .ok { r with name := ← d.string } },
        { name := "target", required := true
          read := fun r d => do .ok { r with target := ← d.string } },
        { name := "kind", required := true
          read := fun r d => do .ok { r with kind := ← RelationKind.decode d } },
        { name := "nullable", required := false
          read := fun r d => do .ok { r with nullable := ← d.boolean } },
        { name := "on_delete", required := false
          read := fun r d => do .ok { r with onDelete := ← DeletePolicy.decode d } },
        { name := "related_name", required := false
          read := fun r d => do .ok { r with relatedName := ← d.nullable Document.string } },
        { name := "help", required := false
          read := fun r d => do .ok { r with help := ← d.nullable Document.string } }]
    default := { name := "", target := "", kind := .foreignKey } }

def ParamDef.shape : Shape ParamDef :=
  { name := "ParamDefinition"
    fields :=
      [{ name := "name", required := true
         read := fun p d => do .ok { p with name := ← d.string } },
        { name := "kind", required := false
          read := fun p d => do .ok { p with kind := ← d.nullable Kind.decode } },
        { name := "list", required := false
          read := fun p d => do .ok { p with list := ← d.boolean } },
        { name := "required", required := false
          read := fun p d => do .ok { p with required := ← d.boolean } },
        { name := "variadic", required := false
          read := fun p d => do .ok { p with variadic := ← d.boolean } }]
    default := { name := "", kind := none } }

def MethodDef.shape : Shape MethodDef :=
  { name := "MethodDefinition"
    fields :=
      [{ name := "name", required := true
         read := fun m d => do .ok { m with name := ← d.string } },
        { name := "exposed", required := false
          read := fun m d => do .ok { m with exposed := ← d.boolean } },
        { name := "operation", required := false
          read := fun m d => do .ok { m with operation := ← d.nullable Document.string } },
        { name := "params", required := false
          read := fun m d => do .ok { m with params := ← d.list ParamDef.shape.decode } },
        { name := "returns", required := false
          read := fun m d => do .ok { m with returns := ← Returns.decode d } },
        { name := "help", required := false
          read := fun m d => do .ok { m with help := ← d.nullable Document.string } }]
    default := { name := "" } }

def ModelDef.shape : Shape ModelDef :=
  { name := "ModelDefinition"
    fields :=
      [{ name := "name", required := true
         read := fun m d => do .ok { m with name := ← d.string } },
        { name := "abstract", required := false
          read := fun m d => do .ok { m with isAbstract := ← d.boolean } },
        { name := "bases", required := false
          read := fun m d => do .ok { m with bases := ← d.list Document.string } },
        { name := "plural", required := false
          read := fun m d => do .ok { m with plural := ← d.nullable Document.string } },
        { name := "fields", required := false
          read := fun m d => do .ok { m with fields := ← d.list FieldDef.shape.decode } },
        { name := "relations", required := false
          read := fun m d => do .ok { m with relations := ← d.list RelationDef.shape.decode } },
        { name := "methods", required := false
          read := fun m d => do .ok { m with methods := ← d.list MethodDef.shape.decode } },
        { name := "help", required := false
          read := fun m d => do .ok { m with help := ← d.nullable Document.string } }]
    default := { name := "" } }

def Registry.shape : Shape Registry :=
  { name := "Registry"
    fields :=
      [{ name := "options", required := false
         read := fun r d => do .ok { r with options := ← Options.shape.decode d } },
        { name := "models", required := false
          read := fun r d => do .ok { r with models := ← d.list ModelDef.shape.decode } }]
    default := {} }

def Registry.ofText (text : String) : Decoded Registry := decodeText Registry.shape.decode text

end ModelSurface
