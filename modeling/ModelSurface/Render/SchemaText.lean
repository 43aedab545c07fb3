import ModelSurface.Query.Order
import ModelSurface.Render.Declaration
import ModelSurface.Surface.Operation
import ModelSurface.Surface.Schema
import ModelSurface.Violation.Basic

/-!
The schema document of a schema: the types that all surfaces share, those of every model, the
filters, and last the operations.
-/

namespace ModelSurface

namespace TypeExpr

def scalar (kind : Kind) : TypeExpr := .named kind.typeName

end TypeExpr

/-! ### Types that no model brings -/

namespace BuiltIn

/-- The kinds whose types need no declaration. -/
def standardKinds : List Kind := [.string, .integer, .float, .boolean]

def declaredScalars : List String :=
  (Kind.all.filter fun kind => !standardKinds.contains kind).map Kind.typeName

def pageInfoMembers : List Member :=
  [{ name := "has_next_page", type := .nonNull (.scalar .boolean) },
    { name := "has_previous_page", type := .nonNull (.scalar .boolean) },
    { name := "start_cursor", type := .scalar .string },
    { name := "end_cursor", type := .scalar .string }]

def mutationErrorMembers : List Member :=
  [{ name := "kind", type := .nonNull (.named errorKind) },
    { name := "message", type := .nonNull (.scalar .string) },
    { name := "field", type := .scalar .string },
    { name := "index", type := .scalar .integer }]

def mutationResultMembers : List Member :=
  [{ name := "ok", type := .nonNull (.scalar .boolean) },
    { name := "object", type := .scalar .json },
    { name := "objects", type := .list (.scalar .json) },
    { name := "errors", type := .ofItems mutationError }]

/-- The types that are the same in all surfaces. -/
def declarations : List Declaration :=
  [.enumeration orderDirection (Direction.all.map Direction.name),
    .enumeration bulkPolicy (BulkPolicy.all.map BulkPolicy.name),
    .enumeration errorKind (ErrorKind.all.map ErrorKind.name),
    .object pageInfo none pageInfoMembers,
    .object mutationError none mutationErrorMembers,
    .object mutationResult none mutationResultMembers]

end BuiltIn

/-! ### Filters -/

namespace OperatorType

def operand (type : OperatorType) (op : FilterOp) : TypeExpr :=
  let value : TypeRef := .scalarOrList type.kind type.list
  match op with
  | .isNull => .scalar .boolean
  | .isIn | .notIn => .list value.expr
  | .range => .list (.nonNull (.scalar type.kind))
  | .eq | .ne => value.orNull.expr
  | _ => .scalar type.kind

def declaration (type : OperatorType) : Declaration :=
  .input type.name <|
    type.operators.map fun op => { name := op.name, type := type.operand op }

end OperatorType

namespace FilterField

def inputName : FilterField → String
  | .scalar _ kind list nullable => FilterOp.typeName kind list nullable
  | .relation _ _ _ filter => filter.name

def member (field : FilterField) : Member := { name := field.name, type := .named field.inputName }

end FilterField

namespace FilterType

def combinators (type : FilterType) : List Member :=
  let several : TypeExpr := .list (.nonNull (.named type.name))
  [{ name := "and", type := several }, { name := "or", type := several },
    { name := "not", type := .named type.name }]

def declaration (type : FilterType) : Declaration :=
  .input type.name (type.combinators ++ type.fields.map FilterField.member)

end FilterType

/-! ### Models -/

def OutputField.member (field : OutputField) : Member :=
  { name := field.name, type := field.type.expr, description := field.description }

def OutputType.declaration (type : OutputType) : Declaration :=
  .object type.name type.description (type.fields.map OutputField.member)

def InputField.member (field : InputField) : Member :=
  { name := field.name, type := field.type.expr, description := field.description }

def InputType.declaration (type : InputType) : Declaration :=
  .input type.name (type.fields.map InputField.member)

namespace Model

/-- An entry of an order: a field, upwards unless the entry says otherwise. -/
def orderMembers (model : Model) : List Member :=
  [{ name := "field", type := .nonNull (.named (Naming.orderField model.name)) },
    { name := "direction"
      type := .named BuiltIn.orderDirection
      default := some Direction.ascending.name }]

def pageMembers (model : Model) : List Member :=
  [{ name := "items", type := .ofItems (Naming.output model.name) },
    { name := "total_count", type := .nonNull (.scalar .integer) },
    { name := "page_info", type := .nonNull (.named BuiltIn.pageInfo) }]

end Model

namespace Operation

def member (operation : Operation) : Member where
  name := operation.name
  type := operation.returns.expr
  arguments := operation.arguments.map fun argument => (argument.name, argument.type.expr)
  description := operation.description

/-- The type that holds some operations, unless there are none. -/
def root (name : String) (operations : List Operation) : List Declaration :=
  if operations.isEmpty then [] else [.object name none (operations.map member)]

end Operation

/-! ### The document -/

namespace Schema

def modelDeclarations (schema : Schema) (model : Model) : List Declaration :=
  [(OutputType.ofModel model).declaration,
    (schema.input .create model).declaration,
    (schema.input .update model).declaration,
    (schema.input .delete model).declaration,
    .enumeration (Naming.orderField model.name) model.sortableFields,
    .input (Naming.orderBy model.name) model.orderMembers,
    .object (Naming.page model.name) none model.pageMembers]

def document (schema : Schema) : SchemaDocument where
  scalars :=
    BuiltIn.declaredScalars ++ schema.models.map fun model => Naming.reference model.name
  types :=
    BuiltIn.declarations ++
      schema.operatorTypes.map OperatorType.declaration ++
      schema.models.flatMap schema.modelDeclarations ++
      schema.filterTypes.map FilterType.declaration ++
      Operation.root BuiltIn.query schema.queries ++
      Operation.root BuiltIn.mutation schema.mutations

end Schema

end ModelSurface
