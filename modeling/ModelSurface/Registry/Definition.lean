import ModelSurface.Json.Basic
import ModelSurface.Scalar.Kind

/-!
Definitions of models: what a registry holds, as declared, and the words that registry documents use
for alternatives.
-/

namespace ModelSurface

structure Options where
  /-- How many relations a filter may follow; none at 0. -/
  relationFilterDepth : Nat := 1
  defaultPageSize : Nat := 20
  maxPageSize : Nat := 100
deriving DecidableEq, Repr, Inhabited

/-- When a computed value is assigned: once, or on every save. -/
inductive Moment where
  | create
  | save
deriving DecidableEq, Repr, Inhabited

inductive Generator where
  | now
  | today
  | uuid
  /-- The next integer of the field's own sequence. -/
  | sequence
deriving DecidableEq, Repr, Inhabited

def Generator.produces : Generator → Kind → Bool
  | .now, .datetime => true
  | .now, .time => true
  | .today, .date => true
  | .uuid, .uuid => true
  | .uuid, .string => true
  | .sequence, .integer => true
  | _, _ => false

structure Computed where
  moment : Moment
  generator : Generator
deriving DecidableEq, Repr, Inhabited

structure FieldDef where
  name : String
  kind : Kind
  nullable : Bool := false
  default : Option Json := none
  computed : Option Computed := none
  identity : Bool := false
  list : Bool := false
  help : Option String := none
deriving Repr, Inhabited

inductive RelationKind where
  | foreignKey
  | oneToOne
  | manyToMany
deriving DecidableEq, Repr, Inhabited

inductive DeletePolicy where
  | restrict
  | cascade
  | setNull
deriving DecidableEq, Repr, Inhabited

/-- A relation, declared on the side that holds it. -/
structure RelationDef where
  name : String
  target : String
  kind : RelationKind
  nullable : Bool := false
  onDelete : DeletePolicy := .restrict
  /-- The name of the other side, in which `{model}` stands for the declaring model. -/
  relatedName : Option String := none
  help : Option String := none
deriving DecidableEq, Repr, Inhabited

structure ParamDef where
  name : String
  /-- Untyped when absent. -/
  kind : Option Kind
  list : Bool := false
  required : Bool := true
  variadic : Bool := false
deriving DecidableEq, Repr, Inhabited

inductive Returns where
  | nothing
  | scalar (kind : Kind)
  | structured
deriving DecidableEq, Repr, Inhabited

structure MethodDef where
  name : String
  /-- Only exposed methods become mutations. -/
  exposed : Bool := false
  /-- The name of the operation, in place of the usual one. -/
  operation : Option String := none
  params : List ParamDef := []
  returns : Returns := .nothing
  help : Option String := none
deriving DecidableEq, Repr, Inhabited

structure ModelDef where
  name : String
  /-- An abstract model gives its members to others and has no operations. -/
  isAbstract : Bool := false
  /-- The models it inherits from; earlier ones come first. -/
  bases : List String := []
  plural : Option String := none
  fields : List FieldDef := []
  relations : List RelationDef := []
  methods : List MethodDef := []
  help : Option String := none
deriving Repr, Inhabited

/-- Models in the order of their registration, and how their surface is generated. -/
structure Registry where
  options : Options := {}
  models : List ModelDef := []
deriving Repr, Inhabited

namespace Registry

def register (registry : Registry) (model : ModelDef) : Registry :=
  { registry with models := registry.models ++ [model] }

def model? (registry : Registry) (name : String) : Option ModelDef :=
  registry.models.find? fun model => model.name == name

end Registry

/-! ### Words for alternatives -/

namespace Moment

def all : List Moment := [.create, .save]

def name : Moment → String
  | .create => "create"
  | .save => "save"

def ofName? (name : String) : Option Moment := all.find? fun moment => moment.name == name

end Moment

namespace Generator

def all : List Generator := [.now, .today, .uuid, .sequence]

def name : Generator → String
  | .now => "now"
  | .today => "today"
  | .uuid => "uuid"
  | .sequence => "sequence"

def ofName? (name : String) : Option Generator := all.find? fun g => g.name == name

end Generator

namespace RelationKind

def all : List RelationKind := [.foreignKey, .oneToOne, .manyToMany]

def name : RelationKind → String
  | .foreignKey => "foreign_key"
  | .oneToOne => "one_to_one"
  | .manyToMany => "many_to_many"

def ofName? (name : String) : Option RelationKind := all.find? fun kind => kind.name == name

end RelationKind

namespace DeletePolicy

def all : List DeletePolicy := [.restrict, .cascade, .setNull]

def name : DeletePolicy → String
  | .restrict => "restrict"
  | .cascade => "cascade"
  | .setNull => "set_null"

def ofName? (name : String) : Option DeletePolicy := all.find? fun policy => policy.name == name

end DeletePolicy

/-- The kinds as documents may name them. -/
def Kind.documentNames : List String :=
  ["string", "integer", "float", "boolean", "date", "time", "date_time", "datetime", "decimal",
    "uuid", "duration", "json"]

end ModelSurface
