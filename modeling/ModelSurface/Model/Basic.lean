import ModelSurface.Keyed
import ModelSurface.Registry.Definition
import ModelSurface.Scalar.Value
import ModelSurface.Text.Words

/-!
Models as the surface is generated from them: inherited members are in place, and every
relationship is seen from both of its sides.
-/

namespace ModelSurface

structure Field where
  name : String
  kind : Kind
  nullable : Bool
  default : Option Value
  /-- How the value is assigned; callers never give it. -/
  computed : Option Computed
  identity : Bool
  list : Bool
  help : Option String
deriving Inhabited

namespace Field

/-- Whether a caller may leave the field out of a new record. -/
def isOptional (field : Field) : Bool := field.nullable || field.default.isSome

end Field

/-- How many records are on either side, seen from this one. -/
inductive Cardinality where
  | oneToOne
  | manyToOne
  | oneToMany
  | manyToMany
deriving DecidableEq, Repr, Inhabited

namespace Cardinality

def isMany : Cardinality → Bool
  | .oneToMany | .manyToMany => true
  | .oneToOne | .manyToOne => false

def flip : Cardinality → Cardinality
  | .oneToOne => .oneToOne
  | .manyToOne => .oneToMany
  | .oneToMany => .manyToOne
  | .manyToMany => .manyToMany

@[simp] theorem flip_flip (c : Cardinality) : c.flip.flip = c := by cases c <;> rfl

end Cardinality

/-- Which side of a relationship holds the reference. -/
inductive Ownership where
  /-- The reference is held under the name of the relationship. -/
  | own
  /-- The other side holds it under the given name. -/
  | remote (field : String)
deriving DecidableEq, Repr, Inhabited

structure Relationship where
  name : String
  target : String
  cardinality : Cardinality
  ownership : Ownership
  nullable : Bool
  onDelete : DeletePolicy
  inverse : Option String
  help : Option String
deriving DecidableEq, Repr, Inhabited

namespace Relationship

def isOwn (relationship : Relationship) : Bool :=
  match relationship.ownership with
  | .own => true
  | .remote _ => false

def isMany (relationship : Relationship) : Bool := relationship.cardinality.isMany

/-- Whether the relationship is held here as a single reference. -/
def isForeignKey (relationship : Relationship) : Bool :=
  relationship.isOwn && !relationship.isMany

end Relationship

structure Param where
  name : String
  kind : Kind
  list : Bool
  required : Bool
deriving DecidableEq, Repr, Inhabited

structure Method where
  name : String
  /-- The name of the generated operation, before it is told apart from those of other models. -/
  operation : String
  params : List Param
  returns : Returns
  help : Option String
deriving DecidableEq, Repr, Inhabited

structure Model where
  name : String
  /-- The plural in snake case. -/
  plural : String
  isAbstract : Bool
  identity : Field
  /-- The fields besides the identity, in the order of declaration. -/
  plain : Keyed Field
  relationships : Keyed Relationship
  methods : Keyed Method
  /-- The first of the models it inherits from. -/
  parent : Option String
  help : Option String
deriving Inhabited

namespace Model

/-- All fields, the identity first. -/
def fields (model : Model) : Keyed Field :=
  ⟨(model.identity.name, model.identity) :: model.plain.entries⟩

def field? (model : Model) (name : String) : Option Field := model.fields.get? name

def relationship? (model : Model) (name : String) : Option Relationship :=
  model.relationships.get? name

def hasMember (model : Model) (name : String) : Bool :=
  model.fields.contains name || model.relationships.contains name

def singular (model : Model) : String := Text.snakeCase model.name

end Model

end ModelSurface
