import ModelSurface.Engine.Writing
import ModelSurface.Surface.Schema

/-!
Methods of records: what their handlers may do, and how they are invoked.
-/

namespace ModelSurface

inductive MethodFailure where
  /-- The arguments or the record do not allow it. -/
  | refused (violations : List Violation)
  /-- Of the reason the caller learns nothing. -/
  | failed (message : String)
  | storage (fault : StorageFault)

namespace MethodFailure

def ofField (field : String) (cause : Cause) : MethodFailure := .refused [.ofField field cause]

def toFailure : MethodFailure → Failure
  | .refused violations => .refused violations
  | .failed message => .breach (.method message)
  | .storage fault => .storage fault

end MethodFailure

structure Invocation where
  schema : Schema
  model : Model
  /-- The record whose method is invoked, with the changes made so far. -/
  receiver : Record
  work : Work

abbrev Invoking := EStateM MethodFailure Invocation

/-- What stands behind a method: it takes the arguments and gives the result. -/
abbrev Handler := Record → Invoking Json

namespace Invoking

def transaction {α : Type} (act : Transaction → Except StorageFault (α × Transaction)) :
    Invoking α := fun invocation =>
  match act invocation.work.transaction with
  | .ok (a, transaction) =>
    .ok a { invocation with work := { invocation.work with transaction := transaction } }
  | .error fault => .error (.storage fault) invocation

def get? (model : String) (id : Identity) : Invoking (Option Record) :=
  transaction fun tx => (tx.get? model id).map fun record => (record, tx)

def cancel : Invoking Unit :=
  modify fun invocation => { invocation with work := invocation.work.cancel }

def assignmentFault? (model : Model) (field : String) (value : Value) : Option AssignmentFault :=
  match model.field? field with
  | none => some .unknownField
  | some definition =>
    if definition.identity then some .identity
    else if value.isNull && !definition.nullable then some .null
    else if value.fits definition.kind definition.list then none
    else some (.kind definition.kind)

/-- Sets a field of the record and stores the record. -/
def set (field : String) (value : Value) : Invoking Unit := do
  let invocation ← get
  match assignmentFault? invocation.model field value with
  | some fault => throw (.ofField field (.assignment fault))
  | none =>
    let receiver := invocation.receiver.put field value
    modify fun invocation => { invocation with receiver := receiver }
    match Record.identity? receiver invocation.model.identity.name with
    | none => throw (.failed "receiver has no identity")
    | some id =>
      transaction fun tx => (tx.replace invocation.model.name id receiver).map fun tx => ((), tx)

end Invoking

namespace Method

def readIdentity (model : Model) (members : List (String × Json)) : Checked Identity :=
  let name := model.identity.name
  match members.lookup name with
  | none => Checked.fault name (.argument .required)
  | some json =>
    match Identity.ofJson model.identity.kind json with
    | .ok id => .ok id
    | .error fault => Checked.fault name (.argument (.value fault))

def readParam (members : List (String × Json)) (param : Param) : Checked (String × Value) :=
  match (members.lookup param.name).filter fun json => !json.isNull with
  | none =>
    if param.required then Checked.fault param.name (.argument .required)
    else .ok (param.name, .null)
  | some json =>
    match Value.ofJson param.kind param.list json with
    | .ok value => .ok (param.name, value)
    | .error fault => Checked.fault param.name (.argument (.value fault))

def readParams (members : List (String × Json)) (params : List Param) :
    Checked (List (String × Value)) :=
  params.foldr (fun param rest => Checked.both List.cons (readParam members param) rest) (.ok [])

def readMembers (model : Model) (method : Method) (members : List (String × Json)) :
    Checked (Identity × Record) :=
  let unknown := (members.map (·.1)).filter fun name =>
    name ≠ model.identity.name && !method.params.any fun param => param.name == name
  let id := readIdentity model members
  let params := readParams members method.params
  match id.violations ++ unknown.map (.ofField · (.argument .unknown)) ++ params.violations,
      id, params with
  | [], .ok id, .ok params => .ok (id, Keyed.ofList params)
  | violations, _, _ => .error violations

def readArguments (model : Model) (method : Method) : Json → Checked (Identity × Record)
  | .obj members => readMembers model method members
  | .null => readMembers model method []
  | _ => .error [.ofCause (.argument .parameters)]

/-- The result that callers get of what a handler gives: the record when the method returns
nothing, else what was given, which must be of the declared kind. -/
def result (model : Model) (method : Method) (id : Identity) (receiver : Record) (given : Json) :
    Writing Json := do
  match method.returns with
  | .nothing =>
    match Record.identity? receiver model.identity.name with
    | none => Writing.breach (.vanished model.name id)
    | some stored =>
      match ← Writing.get? model.name stored with
      | some record => pure (Record.toJson record)
      | none => Writing.breach (.vanished model.name id)
  | .scalar kind =>
    match Value.ofJson kind false given with
    | .ok value =>
      if value.isNull then Writing.breach (.result model.name method.name) else pure given
    | .error _ => Writing.breach (.result model.name method.name)
  | .structured => pure given

def runHandler (schema : Schema) (model : Model) (handler : Handler) (arguments receiver : Record) :
    Writing (Json × Record) := fun work =>
  match (handler arguments).run ⟨schema, model, receiver, work⟩ with
  | .ok given stop => .ok (given, stop.receiver) stop.work
  | .error failure stop => .error failure.toFailure stop.work

def invoke (schema : Schema) (model : Model) (method : Method) (handler : Handler)
    (id : Identity) (arguments : Record) : Writing Json := do
  match ← Writing.get? model.name id with
  | none => Writing.refuse (.ofCause .notFound)
  | some receiver =>
    let (given, receiver) ← runHandler schema model handler arguments receiver
    method.result model id receiver given

end Method

end ModelSurface
