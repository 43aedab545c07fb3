import ModelSurface.Model.Basic
import ModelSurface.Naming
import ModelSurface.Scalar.Kind

/-!
The types in which records are read and written, and references to types. Callers never write what
the system assigns; an update names its record and gives only what changes.
-/

namespace ModelSurface

structure TypeRef where
  name : String
  /-- A list, none of whose items is null. -/
  list : Bool := false
  nullable : Bool := false
deriving DecidableEq, Repr, Inhabited

namespace TypeRef

def scalar (kind : Kind) : TypeRef := { name := kind.typeName }

def scalarOrList (kind : Kind) (list : Bool) : TypeRef := { name := kind.typeName, list := list }

def asList (type : TypeRef) : TypeRef := { type with list := true }

def orNull (type : TypeRef) : TypeRef := { type with nullable := true }

def withNull (nullable : Bool) (type : TypeRef) : TypeRef := { type with nullable := nullable }

def text (type : TypeRef) : String :=
  (if type.list then s!"[{type.name}!]" else type.name) ++ (if type.nullable then "" else "!")

end TypeRef

/-! ### Types of what is read -/

inductive OutputSource where
  | scalar (kind : Kind)
  | relation (target : String) (cardinality : Cardinality)
deriving DecidableEq, Repr

structure OutputField where
  name : String
  type : TypeRef
  source : OutputSource
  description : Option String
deriving DecidableEq, Repr

namespace OutputField

def ofField (field : Field) : OutputField where
  name := field.name
  type := (TypeRef.scalarOrList field.kind field.list).withNull field.nullable
  source := .scalar field.kind
  description := field.help

/-- A single record of the other side may be missing. -/
def ofRelationship (relationship : Relationship) : OutputField where
  name := relationship.name
  type :=
    let target : TypeRef := { name := Naming.output relationship.target }
    if relationship.isMany then target.asList
    else target.withNull (relationship.nullable || !relationship.isOwn)
  source := .relation relationship.target relationship.cardinality
  description := relationship.help

end OutputField

structure OutputType where
  name : String
  model : String
  fields : List OutputField
  description : Option String
deriving DecidableEq, Repr

namespace OutputType

def ofModel (model : Model) : OutputType where
  name := Naming.output model.name
  model := model.name
  fields :=
    model.fields.values.map OutputField.ofField ++
      model.relationships.values.map OutputField.ofRelationship
  description := model.help

def field? (type : OutputType) (name : String) : Option OutputField :=
  type.fields.find? fun field => field.name == name

end OutputType

/-! ### Types of what is written -/

inductive InputKind where
  | create
  | update
  | delete
deriving DecidableEq, Repr, Inhabited

/-- An identity to link to, or a record to create and link to. -/
structure RelationInput where
  target : String
  /-- The kind of the identities of the target. -/
  identity : Kind
  many : Bool
deriving DecidableEq, Repr

inductive InputShape where
  | scalar (kind : Kind) (list : Bool)
  | relation (relation : RelationInput)
deriving DecidableEq, Repr

structure InputField where
  name : String
  shape : InputShape
  required : Bool
  acceptsNull : Bool
  description : Option String
deriving DecidableEq, Repr

namespace InputField

def type (field : InputField) : TypeRef :=
  let shape : TypeRef :=
    match field.shape with
    | .scalar kind list => TypeRef.scalarOrList kind list
    | .relation relation => { name := Naming.reference relation.target, list := relation.many }
  shape.withNull (!field.required)

/-- A scalar field, unless inputs of this kind leave it out. -/
def ofField? (kind : InputKind) (field : Field) : Option InputField :=
  let input (required : Bool) : InputField :=
    { name := field.name
      shape := .scalar field.kind field.list
      required := required
      acceptsNull := field.nullable
      description := field.help }
  if field.identity then
    if kind = .create then none else some (input true)
  else if kind = .delete ∨ field.computed.isSome then none
  else some (input (kind = .create && !field.isOptional))

def ofRelationship (kind : InputKind) (relationship : Relationship) (identity : Kind) :
    InputField where
  name := relationship.name
  shape := .relation ⟨relationship.target, identity, relationship.isMany⟩
  required := kind = .create && relationship.isForeignKey && !relationship.nullable
  acceptsNull := relationship.isForeignKey && relationship.nullable
  description := relationship.help

end InputField

structure InputType where
  name : String
  model : String
  kind : InputKind
  fields : List InputField
deriving DecidableEq, Repr

namespace InputType

def nameOf (kind : InputKind) (model : String) : String :=
  match kind with
  | .create => Naming.createInput model
  | .update => Naming.updateInput model
  | .delete => Naming.deleteInput model

def ofModel (target? : String → Option Model) (kind : InputKind) (model : Model) : InputType where
  name := nameOf kind model.name
  model := model.name
  kind := kind
  fields :=
    model.fields.values.filterMap (InputField.ofField? kind) ++
      if kind = .delete then []
      else
        model.relationships.values.filterMap fun relationship =>
          (target? relationship.target).map fun target =>
            InputField.ofRelationship kind relationship target.identity.kind

def field? (type : InputType) (name : String) : Option InputField :=
  type.fields.find? fun field => field.name == name

end InputType

end ModelSurface
