import ModelSurface.Engine.Method
import ModelSurface.Engine.Queries
import ModelSurface.Surface.Operation
import ModelSurface.Write.Apply
import ModelSurface.Write.Plan
import ModelSurface.Write.Planner

/-!
Mutations: each runs in one transaction, and always answers with a result of the same form.
-/

namespace ModelSurface

inductive MutationResult where
  | single (object : Json)
  /-- The objects by position, nothing where an item failed. -/
  | bulk (objects : List (Option Json)) (violations : List Violation)
  | failure (violations : List Violation)

namespace MutationResult

def ofChecked : Checked Json → MutationResult
  | .ok object => .single object
  | .error violations => .failure violations

def isOk : MutationResult → Bool
  | .single _ => true
  | .bulk _ violations => violations.isEmpty
  | .failure _ => false

def violations : MutationResult → List Violation
  | .single _ => []
  | .bulk _ violations => violations
  | .failure violations => violations

def object? : MutationResult → Option Json
  | .single object => some object
  | _ => none

def objects? : MutationResult → Option (List (Option Json))
  | .bulk objects _ => some objects
  | _ => none

def toJson (result : MutationResult) : Json :=
  Json.object
    [("ok", .bool result.isOk),
      ("object", result.object?.getD .null),
      ("objects",
        match result.objects? with
        | some objects => .arr (objects.map (·.getD .null))
        | none => .null),
      ("errors", .arr (result.violations.map Violation.toJson))]

end MutationResult

/-- A write or a deletion that has been checked as far as the input goes. -/
inductive Prepared where
  | write (plan : Plan) (order : List Nat)
  | delete (id : Identity)

namespace Prepared

def readDelete (model : Model) : Json → Checked Identity
  | .obj members =>
    let name := model.identity.name
    let unknown := ((members.map (·.1)).filter fun key => key ≠ name).map fun key =>
      Violation.ofField key (.input .unknown)
    let id : Checked Identity :=
      match members.lookup name with
      | none => Checked.fault name (.input .required)
      | some json =>
        match Identity.ofJson model.identity.kind json with
        | .ok id => .ok id
        | .error fault => Checked.fault name (.input (.value fault))
    Checked.both (fun _ id => id) (if unknown.isEmpty then .ok () else .error unknown) id
  | _ => .error [.ofCause (.input .object)]

def readWrite (schema : Schema) (model : Model) (kind : InputKind) (input : Json) :
    Checked Prepared := do
  let plan ← Plan.ofInput schema model kind input
  match plan.order with
  | .ok order => .ok (.write plan order)
  | .error cycle => .error [plan.cycleViolation cycle]

def ofInput (schema : Schema) (model : Model) (kind : InputKind) (input : Json) :
    Checked Prepared :=
  if kind = .delete then (readDelete model input).map .delete
  else readWrite schema model kind input

def run (schema : Schema) (sources : Sources) (model : Model) : Prepared → Writing Json
  | .write plan order => do pure (Record.toJson (← plan.apply sources order))
  | .delete id => do pure (Record.toJson (← Deletion.delete schema model.name id))

end Prepared

/-- What mutations are run with: the schema, the handlers of methods by model and name, and where
new values come from. -/
structure Engine where
  schema : Schema
  sources : Sources
  handlers : List ((String × String) × Handler) := []

namespace Engine

/-- Puts a handler behind a method, in place of an earlier one. -/
def register (engine : Engine) (model method : String) (handler : Handler) : Engine :=
  { engine with handlers := ((model, method), handler) :: engine.handlers }

def handler? (engine : Engine) (model method : String) : Option Handler :=
  engine.handlers.lookup (model, method)

def runOne (engine : Engine) (store : Store) (model : String) (kind : InputKind) (input : Json)
    (options : CallOptions) : Store × Checked Json :=
  match (do
    let model ← engine.schema.findModel model
    let prepared ← Prepared.ofInput engine.schema model kind input
    pure (model, prepared) : Checked (Model × Prepared)) with
  | .error violations => (store, .error violations)
  | .ok (model, prepared) =>
    store.transact options (prepared.run engine.schema engine.sources model)

def runSingle (engine : Engine) (store : Store) (model : String) (kind : InputKind) (input : Json)
    (options : CallOptions) : Store × MutationResult :=
  let (store, result) := engine.runOne store model kind input options
  (store, .ofChecked result)

def create (engine : Engine) (store : Store) (model : String) (input : Json)
    (options : CallOptions := {}) : Store × MutationResult :=
  engine.runSingle store model .create input options

def update (engine : Engine) (store : Store) (model : String) (input : Json)
    (options : CallOptions := {}) : Store × MutationResult :=
  engine.runSingle store model .update input options

def delete (engine : Engine) (store : Store) (model : String) (input : Json)
    (options : CallOptions := {}) : Store × MutationResult :=
  engine.runSingle store model .delete input options

/-! ### Bulk calls -/

/-- Runs items one after another, the first of which has the given index. -/
def runEach (engine : Engine) (model : String) (kind : InputKind) (options : CallOptions)
    (store : Store) (index : Nat) :
    List Json → Store × List (Option Json) × List Violation
  | [] => (store, [], [])
  | item :: items =>
    let (store, result) := engine.runOne store model kind item options
    let (store, objects, violations) := runEach engine model kind options store (index + 1) items
    match result with
    | .ok object => (store, some object :: objects, violations)
    | .error failed => (store, none :: objects, failed.map (Violation.atIndex index) ++ violations)

def prepareAll (engine : Engine) (model : Model) (kind : InputKind) (index : Nat) :
    List Json → Checked (List Prepared)
  | [] => .ok []
  | item :: items =>
    let prepared := match Prepared.ofInput engine.schema model kind item with
      | .ok prepared => .ok prepared
      | .error failed => .error (failed.map (Violation.atIndex index))
    Checked.both List.cons prepared (prepareAll engine model kind (index + 1) items)

/-- Marks a failure of work with the index of its item. -/
def atIndex {α : Type} (index : Nat) (work : Writing α) : Writing α := fun start =>
  match work start with
  | .ok a stop => .ok a stop
  | .error failure stop => .error (failure.atIndex index) stop

def runPrepared (engine : Engine) (model : Model) (index : Nat) :
    List Prepared → Writing (List (Option Json))
  | [] => pure []
  | prepared :: rest => do
    let object ← atIndex index (prepared.run engine.schema engine.sources model)
    let objects ← runPrepared engine model (index + 1) rest
    pure (some object :: objects)

def runTogether (engine : Engine) (store : Store) (model : String) (kind : InputKind)
    (items : List Json) (options : CallOptions) : Store × MutationResult :=
  match (do
    let model ← engine.schema.findModel model
    let prepared ← engine.prepareAll model kind 0 items
    pure (model, prepared) : Checked (Model × List Prepared)) with
  | .error violations => (store, .failure violations)
  | .ok (model, prepared) =>
    match store.transact options (engine.runPrepared model 0 prepared) with
    | (store, .ok objects) => (store, .bulk objects [])
    | (store, .error violations) => (store, .failure violations)

def bulk (engine : Engine) (store : Store) (model : String) (kind : InputKind)
    (items : List Json) (policy : BulkPolicy) (options : CallOptions := {}) :
    Store × MutationResult :=
  match policy with
  | .allOrNothing => engine.runTogether store model kind items options
  | .bestEffort =>
    let (store, objects, violations) := engine.runEach model kind options store 0 items
    (store, .bulk objects violations)

/-! ### Methods -/

def invoke (engine : Engine) (store : Store) (model method : String) (args : Json)
    (options : CallOptions := {}) : Store × MutationResult :=
  let refuse (violations : List Violation) : Store × MutationResult := (store, .failure violations)
  match engine.schema.findModel model with
  | .error violations => refuse violations
  | .ok found =>
    match found.methods.get? method with
    | none => refuse [.ofCause (.call (.unknownMethod model method))]
    | some exposed =>
      match exposed.readArguments found args with
      | .error violations => refuse violations
      | .ok (id, arguments) =>
        match engine.handler? model method with
        | none => refuse [.ofCause .transaction]
        | some handler =>
          let (store, result) :=
            store.transact options (exposed.invoke engine.schema found handler id arguments)
          (store, .ofChecked result)

/-! ### Mutations by name -/

def readBulk (args : Json) : Checked (List Json × BulkPolicy) :=
  let items : Checked (List Json) :=
    match args.get? "items" with
    | some (.arr items) => .ok items
    | some _ => Checked.fault "items" (.argument .list)
    | none => Checked.fault "items" (.argument .required)
  let policy : Checked BulkPolicy :=
    match args.get? "policy" with
    | none => Checked.fault "policy" (.argument .required)
    | some json =>
      match BulkPolicy.ofJson? json with
      | some policy => .ok policy
      | none => Checked.fault "policy" (.argument .policy)
  Checked.both Prod.mk items policy

def runInput (engine : Engine) (store : Store) (model : String) (kind : InputKind) (args : Json)
    (options : CallOptions) : Store × MutationResult :=
  match args.get? "input" with
  | none => (store, .failure [.ofField "input" (.argument .required)])
  | some input => engine.runSingle store model kind input options

def runItems (engine : Engine) (store : Store) (model : String) (kind : InputKind) (args : Json)
    (options : CallOptions) : Store × MutationResult :=
  match readBulk args with
  | .error violations => (store, .failure violations)
  | .ok (items, policy) => engine.bulk store model kind items policy options

def mutate (engine : Engine) (store : Store) (name : String) (args : Json)
    (options : CallOptions := {}) : Store × MutationResult :=
  match engine.schema.operation? name with
  | none => (store, .failure [.ofCause (.call (.unknownOperation name))])
  | some operation =>
    let model := operation.model
    match operation.kind with
    | .create => engine.runInput store model .create args options
    | .update => engine.runInput store model .update args options
    | .delete => engine.runInput store model .delete args options
    | .bulkCreate => engine.runItems store model .create args options
    | .bulkUpdate => engine.runItems store model .update args options
    | .bulkDelete => engine.runItems store model .delete args options
    | .method method => engine.invoke store model method args options
    | .single | .list | .pages => (store, .failure [.ofCause (.call (.isQuery name))])

end Engine

end ModelSurface
