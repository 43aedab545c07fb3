import ModelSurface.Keyed
import ModelSurface.Model.Issue
import ModelSurface.Naming
import ModelSurface.Text.Basic

/-!
The members of a model, its own and the inherited ones. Of several bases an earlier one goes
before a later one, and a declaration of the model itself goes before all of them.
-/

namespace ModelSurface

structure Members where
  fields : Keyed FieldDef := .empty
  relations : Keyed RelationDef := .empty
  methods : Keyed MethodDef := .empty
deriving Inhabited

namespace Members

/-- Fields and relations share their names. -/
def has (members : Members) (name : String) : Bool :=
  members.fields.contains name || members.relations.contains name

def inheritField (members : Members) (entry : String × FieldDef) : Members :=
  if members.has entry.1 then members
  else { members with fields := members.fields.put entry.1 entry.2 }

def inheritRelation (members : Members) (entry : String × RelationDef) : Members :=
  if members.has entry.1 then members
  else { members with relations := members.relations.put entry.1 entry.2 }

def inheritMethod (members : Members) (entry : String × MethodDef) : Members :=
  if members.methods.contains entry.1 then members
  else { members with methods := members.methods.put entry.1 entry.2 }

/-- Adds the members of a base whose names are free. -/
def inherit (members base : Members) : Members :=
  let members := base.fields.entries.foldl inheritField members
  let members := base.relations.entries.foldl inheritRelation members
  base.methods.entries.foldl inheritMethod members

def declareField (members : Members) (field : FieldDef) : Members :=
  { members with
    fields := members.fields.put field.name field
    relations := members.relations.erase field.name }

def declareRelation (members : Members) (relation : RelationDef) : Members :=
  { members with
    fields := members.fields.erase relation.name
    relations := members.relations.put relation.name relation }

def declareMethod (members : Members) (method : MethodDef) : Members :=
  { members with methods := members.methods.put method.name method }

/-- Adds the declarations of a model, each in place of an inherited member of its name. -/
def declare (members : Members) (model : ModelDef) : Members :=
  let members := model.fields.foldl declareField members
  let members := model.relations.foldl declareRelation members
  model.methods.foldl declareMethod members

end Members

namespace RelationDef

/-- A name in which `{model}` stands for the declaring model in snake case. -/
def expand (template model : String) : String :=
  String.ofList <|
    Text.replaceAll "\x7bmodel\x7d".toList (Text.snakeCase model).toList template.toList

def reverseName (relation : RelationDef) (model : String) : String :=
  match relation.relatedName, relation.kind with
  | some template, _ => expand template model
  | none, .oneToOne => Text.snakeCase model
  | none, _ => Naming.plural (Text.snakeCase model)

end RelationDef

namespace ModelDef

/-- The names that a model gives, in the order in which they are looked at. -/
def givenNames (model : ModelDef) : List String :=
  [model.name] ++ model.plural.toList ++ model.fields.map (·.name) ++
    model.relations.map (·.name) ++
    model.relations.filterMap fun relation =>
      relation.relatedName.map fun template => RelationDef.expand template model.name

def ownIssue? (model : ModelDef) : Option Issue :=
  match model.givenNames.find? fun name => !Naming.isValid name with
  | some name => some (.invalidName model.name name)
  | none =>
    match Naming.firstRepeated (model.fields.map (·.name) ++ model.relations.map (·.name)) with
    | some name => some (.duplicateMember model.name name)
    | none =>
      (Naming.firstRepeated (model.methods.map (·.name))).map (.duplicateMember model.name)

end ModelDef

end ModelSurface
