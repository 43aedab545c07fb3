import ModelSurface.Json.Basic
import ModelSurface.Model.Basic
import ModelSurface.Naming
import ModelSurface.Surface.Types

/-!
The operations on a model: what callers may ask and change, with which arguments. And what the names
of a surface belong to: a name that belongs to two of them is a conflict.
-/

namespace ModelSurface

/-- How a bulk call treats items that fail. -/
inductive BulkPolicy where
  /-- One transaction for all items. -/
  | allOrNothing
  /-- One transaction for each item. -/
  | bestEffort
deriving DecidableEq, Repr, Inhabited

namespace BulkPolicy

def name : BulkPolicy → String
  | .allOrNothing => "all_or_nothing"
  | .bestEffort => "best_effort"

def all : List BulkPolicy := [.allOrNothing, .bestEffort]

def ofName? (name : String) : Option BulkPolicy := all.find? fun policy => policy.name == name

/-- A policy is written as its name, or as an object whose only member has that name and is
null. -/
def ofJson? : Json → Option BulkPolicy
  | .str name => ofName? name
  | .obj [(name, .null)] => ofName? name
  | _ => none

end BulkPolicy

/-! ### Operations -/

/-- The kinds of operations that a surface offers for a model. -/
inductive OperationKind where
  | single
  | list
  | pages
  | create
  | update
  | delete
  | bulkCreate
  | bulkUpdate
  | bulkDelete
  | method (name : String)
deriving DecidableEq, Repr, Inhabited

namespace OperationKind

def isQuery : OperationKind → Bool
  | .single | .list | .pages => true
  | _ => false

def description : OperationKind → String
  | .single => "single accessor"
  | .list => "list accessor"
  | .pages => "paginated accessor"
  | .create => "create mutation"
  | .update => "update mutation"
  | .delete => "delete mutation"
  | .bulkCreate => "bulk create mutation"
  | .bulkUpdate => "bulk update mutation"
  | .bulkDelete => "bulk delete mutation"
  | .method _ => "method"

end OperationKind

structure Argument where
  name : String
  type : TypeRef
deriving DecidableEq, Repr, Inhabited

structure Operation where
  name : String
  kind : OperationKind
  model : String
  arguments : List Argument
  returns : TypeRef
  description : Option String
deriving DecidableEq, Repr, Inhabited

/-! ### Types that no model brings -/

namespace BuiltIn

def query : String := "Query"
def mutation : String := "Mutation"
def pageInfo : String := "PageInfo"
def orderDirection : String := "OrderDirection"
def mutationResult : String := "MutationResult"
def mutationError : String := "MutationError"
def errorKind : String := "ErrorKind"
def bulkPolicy : String := "BulkPolicy"

def all : List String :=
  Kind.all.map Kind.typeName ++
    [query, mutation, pageInfo, orderDirection, mutationResult, mutationError, errorKind,
      bulkPolicy]

end BuiltIn

namespace OperationKind

def nameFor (model : Model) : OperationKind → String
  | .single => model.singular
  | .list => Text.snakeCase model.plural
  | .pages => s!"{model.singular}_pages"
  | .create => s!"create_{model.singular}"
  | .update => s!"update_{model.singular}"
  | .delete => s!"delete_{model.singular}"
  | .bulkCreate => s!"bulk_create_{model.singular}"
  | .bulkUpdate => s!"bulk_update_{model.singular}"
  | .bulkDelete => s!"bulk_delete_{model.singular}"
  | .method name => ((model.methods.get? name).map (·.operation)).getD name

def common : List OperationKind :=
  [.single, .list, .pages, .create, .update, .delete, .bulkCreate, .bulkUpdate, .bulkDelete]

end OperationKind

namespace Operation

def argument? (operation : Operation) (name : String) : Option Argument :=
  operation.arguments.find? fun argument => argument.name == name

def identityArgument (model : Model) : Argument :=
  ⟨model.identity.name, .scalar model.identity.kind⟩

def filterArgument (model : Model) : Argument :=
  ⟨"filter", { name := Naming.filter model.name 1 1, nullable := true }⟩

def orderArgument (model : Model) : Argument :=
  ⟨"order_by", { name := Naming.orderBy model.name, list := true, nullable := true }⟩

def countArgument (name : String) : Argument := ⟨name, (TypeRef.scalar .integer).orNull⟩

def inputArgument (type : String) : Argument := ⟨"input", { name := type }⟩

def bulkArguments (type : String) : List Argument :=
  [⟨"items", { name := type, list := true }⟩, ⟨"policy", { name := BuiltIn.bulkPolicy }⟩]

def paramArgument (param : Param) : Argument :=
  ⟨param.name, (TypeRef.scalarOrList param.kind param.list).withNull (!param.required)⟩

def queries (model : Model) : List Operation :=
  let operation (kind : OperationKind) (arguments : List Argument) (returns : TypeRef)
      (description : String) : Operation :=
    ⟨kind.nameFor model, kind, model.name, arguments, returns, some description⟩
  let output : TypeRef := { name := Naming.output model.name }
  [operation .single [identityArgument model] output.orNull
      s!"Fetch one {model.name} by identity",
    operation .list
      [filterArgument model, orderArgument model, countArgument "limit", countArgument "offset"]
      output.asList s!"List {model.name} records",
    operation .pages
      [filterArgument model, orderArgument model, countArgument "page_size",
        ⟨"after", (TypeRef.scalar .string).orNull⟩, countArgument "offset"]
      { name := Naming.page model.name } s!"Page through {model.name} records"]

def mutations (model : Model) : List Operation :=
  let operation (kind : OperationKind) (arguments : List Argument) (description : String) :
      Operation :=
    ⟨kind.nameFor model, kind, model.name, arguments, { name := BuiltIn.mutationResult },
      some description⟩
  [operation .create [inputArgument (Naming.createInput model.name)] s!"Create a {model.name}",
    operation .update [inputArgument (Naming.updateInput model.name)]
      s!"Update a {model.name}; omitted fields are left unchanged",
    operation .delete [inputArgument (Naming.deleteInput model.name)] s!"Delete a {model.name}",
    operation .bulkCreate (bulkArguments (Naming.createInput model.name))
      s!"Create several {model.name} records",
    operation .bulkUpdate (bulkArguments (Naming.updateInput model.name))
      s!"Update several {model.name} records",
    operation .bulkDelete (bulkArguments (Naming.deleteInput model.name))
      s!"Delete several {model.name} records"]

def ofMethod (model : Model) (method : Method) : Operation where
  name := method.operation
  kind := .method method.name
  model := model.name
  arguments := identityArgument model :: method.params.map paramArgument
  returns := { name := BuiltIn.mutationResult }
  description := method.help

def ofModel (model : Model) : List Operation :=
  queries model ++ mutations model ++ model.methods.values.map (ofMethod model)

end Operation

/-! ### What names belong to -/

inductive Origin where
  | model (model : String)
  | builtIn
  | output (model : String)
  | input (model : String)
  | reference (model : String)
  | filter (model : String)
  | ordering (model : String)
  | page (model : String)
  | operation (model : String) (kind : OperationKind)
deriving DecidableEq, Repr

namespace Origin

def text : Origin → String
  | .model name => s!"model `{name}`"
  | .builtIn => "built-in type"
  | .output name => s!"output type of model `{name}`"
  | .input name => s!"input type of model `{name}`"
  | .reference name => s!"reference input of model `{name}`"
  | .filter name => s!"filter of model `{name}`"
  | .ordering name => s!"ordering of model `{name}`"
  | .page name => s!"page type of model `{name}`"
  | .operation owner (.method name) => s!"method `{owner}.{name}`"
  | .operation owner kind => s!"{kind.description} of model `{owner}`"

end Origin

structure NameConflict where
  name : String
  first : Origin
  second : Origin
deriving DecidableEq, Repr

namespace NameConflict

def message (conflict : NameConflict) : String :=
  s!"schema name conflict: `{conflict.name}` is generated by both {conflict.first.text} " ++
    s!"and {conflict.second.text}"

end NameConflict

/-- A name and what it belongs to. -/
structure NameClaim where
  name : String
  origin : Origin
deriving DecidableEq, Repr

namespace NameClaim

/-- The first claim to a name that already belongs to something else. `owners` are the names
claimed so far. -/
def conflictFrom? (owners : List (String × Origin)) : List NameClaim → Option NameConflict
  | [] => none
  | claim :: claims =>
    match owners.lookup claim.name with
    | none => conflictFrom? ((claim.name, claim.origin) :: owners) claims
    | some owner =>
      if owner = claim.origin then conflictFrom? owners claims
      else some ⟨claim.name, owner, claim.origin⟩

def conflict? (claims : List NameClaim) : Option NameConflict := conflictFrom? [] claims

end NameClaim

end ModelSurface
