import ModelSurface.Model.Basic
import ModelSurface.Model.Issue
import ModelSurface.Naming

/-!
The fields of a model out of their definitions, and its methods as operations. Every model has one
identity, which is assigned once, when a record is created. A method whose signature has no
counterpart in the surface is left out.
-/

namespace ModelSurface.Field

def implicitName : String := "id"

/-- The identity of a model that declares none. -/
def implicit : Field where
  name := implicitName
  kind := .integer
  nullable := false
  default := none
  computed := some ⟨.create, .sequence⟩
  identity := true
  list := false
  help := none

def identityGenerator? (definition : FieldDef) : Option Generator :=
  match definition.computed with
  | some computed =>
    if computed.moment = .create ∧ computed.generator.produces definition.kind then
      some computed.generator
    else none
  | none => some (if definition.kind = .uuid then .uuid else .sequence)

def ofIdentity (model : String) (definition : FieldDef) : Except Issue Field :=
  let invalid (fault : IdentityFault) : Except Issue Field :=
    .error (.invalidIdentity model definition.name fault)
  if !definition.kind.isIdentity then invalid .kind
  else if definition.nullable || definition.list || definition.default.isSome then invalid .shape
  else
    match identityGenerator? definition with
    | none => invalid .assignment
    | some generator =>
      .ok
        { name := definition.name
          kind := definition.kind
          nullable := false
          default := none
          computed := some ⟨.create, generator⟩
          identity := true
          list := false
          help := definition.help }

def computedFault? (definition : FieldDef) : Option DefaultFault :=
  match definition.computed with
  | none => none
  | some computed =>
    if definition.list then some (.computedList computed.generator)
    else if computed.generator.produces definition.kind then none
    else some (.computedKind computed.generator definition.kind)

def defaultValue (definition : FieldDef) : Except DefaultFault (Option Value) :=
  match definition.default with
  | none => .ok none
  | some json =>
    match Value.ofJson definition.kind definition.list json with
    | .error fault => .error (.value fault)
    | .ok value =>
      if value.isNull && !definition.nullable then .error .null else .ok (some value)

def ofPlain (model : String) (definition : FieldDef) : Except Issue Field :=
  let invalid (fault : DefaultFault) : Except Issue Field :=
    .error (.invalidDefault model definition.name fault)
  match computedFault? definition with
  | some fault => invalid fault
  | none =>
    match defaultValue definition with
    | .error fault => invalid fault
    | .ok default =>
      .ok
        { name := definition.name
          kind := definition.kind
          nullable := definition.nullable
          default := default
          computed := definition.computed
          identity := false
          list := definition.list
          help := definition.help }

/-- The identity of a model and its other fields. The first definition that is in fault counts. -/
def ofDefs (model : String) (definitions : List FieldDef) : Except Issue (Field × List Field) :=
  match definitions.dropWhile fun d => !d.identity with
  | [] => do
    if definitions.any fun d => d.name == implicitName then
      .error (.invalidIdentity model implicitName .notMarked)
    else .ok (implicit, ← definitions.mapM (ofPlain model))
  | identity :: behind =>
    match behind.find? (·.identity) with
    | some second => .error (.invalidIdentity model second.name .repeated)
    | none => do
      let front ← (definitions.takeWhile fun d => !d.identity).mapM (ofPlain model)
      let identity ← ofIdentity model identity
      let behind ← behind.mapM (ofPlain model)
      .ok (identity, front ++ behind)

end ModelSurface.Field

namespace ModelSurface

namespace Param

def ofDefs (identity : String) (before : List String) :
    List ParamDef → Except SignatureFault (List Param)
  | [] => .ok []
  | param :: params =>
    if !Naming.isValid param.name then .error (.paramName param.name)
    else if param.variadic then .error (.variadic param.name)
    else
      match param.kind with
      | none => .error (.untyped param.name)
      | some kind =>
        if param.name = identity then .error (.shadowsIdentity param.name)
        else if before.contains param.name then .error (.repeated param.name)
        else do
          let rest ← ofDefs identity (param.name :: before) params
          .ok (⟨param.name, kind, param.list, param.required⟩ :: rest)

end Param

namespace Method

def ofDef (identity : String) (definition : MethodDef) : Except SignatureFault Method :=
  let operation := definition.operation.getD definition.name
  if !Naming.isValid definition.name then .error (.name definition.name)
  else if !Naming.isValid operation then .error (.name operation)
  else do
    let params ← Param.ofDefs identity [] definition.params
    .ok
      { name := definition.name
        operation := operation
        params := params
        returns := definition.returns
        help := definition.help }

def ofDefs (model identity : String) : List MethodDef → List Method × List Issue
  | [] => ([], [])
  | definition :: definitions =>
    let (methods, issues) := ofDefs model identity definitions
    if !definition.exposed then (methods, issues)
    else
      match ofDef identity definition with
      | .ok method => (method :: methods, issues)
      | .error fault => (methods, .unsupportedMethod model definition.name fault :: issues)

end Method

end ModelSurface
